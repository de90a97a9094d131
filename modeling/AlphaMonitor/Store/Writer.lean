import AlphaMonitor.Lib.Inserts
import AlphaMonitor.Pair.Aggregator
import AlphaMonitor.Store.Messages

/-!
# The database writer

The writer sorts messages into buffers and flushes them all in one transaction.  The
tables enforce their primary keys; a statement that fails, by itself or because the
server fails it, aborts the transaction, and the rows go back into the buffers.

Only a committed flush acknowledges rows, apart from the messages that the writer
skips while alpha capture is off.
-/

namespace AlphaMonitor.Store

open Lib (insertRow insertRows insertRows_append insertRows_isSome_iff insertRows_taken
  upsertRow dedupeRows flatten_toChunks)
open Shard (Bars1sToken ResyncLog)

def rawEventFlushThreshold : ℕ := 100000
def tokenBarFlushThreshold : ℕ := 50000
def pairBarFlushThreshold : ℕ := 50000
def clockFlushThreshold : ℕ := 20000
def tokenRegistryFlushThreshold : ℕ := 5000
def overrideFlushThreshold : ℕ := 2000
def resyncFlushThreshold : ℕ := 2000
def healthFlushThreshold : ℕ := 2000
def chainFlushThreshold : ℕ := 2000
def shockFlushThreshold : ℕ := 2000
def shockUpdateFlushThreshold : ℕ := 2000
def opinionResponseFlushThreshold : ℕ := 5000
def tradeAuditFlushThreshold : ℕ := 5000
def cancelSnapshotFlushThreshold : ℕ := 5000

def rawEventCols : ℕ := 16
def tokenBarCols : ℕ := 75
def rawEventBatchMax : ℕ := Pair.pgSafeBinds / rawEventCols
def tokenBarBatchMax : ℕ := Pair.pgSafeBinds / tokenBarCols

/-- What the writer is started with, and how its server reads a conflict clause. -/
structure WriterConfig where
  alphaCaptureEnabled : Bool
  /-- An unqualified column of the table in `DO UPDATE SET` means the stored row's.
  Postgres finds it ambiguous with that of `excluded` and rejects the statement. -/
  bareColumnsResolve : Bool
  deriving DecidableEq, Repr

/-! ## Tables -/

/-- A row of `token_registry`. -/
structure TokenRegistryRow where
  tokenKey : String
  venue : Venue
  (externalTokenId marketId : Option String)
  outcomeSide : Option ℤ
  tokenSide : TokenSide
  (firstSeenLocalTsMs lastSeenLocalTsMs : ℤ)
  deriving DecidableEq, Repr

/-- A row of `pair_token_overrides`, as far as the writer fills it. -/
structure PairTokenOverrideRow where
  (pairId mappingOverriddenFlag : ℤ)
  (opinionYesTokenIdOverride opinionNoTokenIdOverride : Option String)
  updatedLocalTsMs : ℤ
  deriving DecidableEq, Repr

/-- The tables that the writer writes.  Those with a `BIGSERIAL` key are lists. -/
structure Database where
  clockOffsets : Venue × ℤ → Option ClockOffsetSample
  tokenRegistry : String → Option TokenRegistryRow
  pairTokenOverrides : ℤ → Option PairTokenOverrideRow
  orderbookResyncLog : List ResyncLog
  connectionHealth1s : Venue × ℤ → Option ConnectionHealthRow
  chainMetrics : String × ℤ → Option ChainMetricsRow
  rawEvents : List Event
  bars1sToken : TokenBarKey → Option Bars1sToken
  bars1sPair : Pair.PairTable
  polyShockEvents : ℤ → Option ShockEvent
  opinionResponse : ℤ × ℤ → Option OpinionResponseRow
  tradeAudit : List TradeAuditRow
  cancelTriggerSnapshot : List CancelTriggerSnapshotRow

/-- Tables without rows. -/
def Database.fresh : Database where
  clockOffsets := fun _ => none
  tokenRegistry := fun _ => none
  pairTokenOverrides := fun _ => none
  orderbookResyncLog := []
  connectionHealth1s := fun _ => none
  chainMetrics := fun _ => none
  rawEvents := []
  bars1sToken := fun _ => none
  bars1sPair := fun _ => none
  polyShockEvents := fun _ => none
  opinionResponse := fun _ => none
  tradeAudit := []
  cancelTriggerSnapshot := []

/-! ## Statements -/

/-- The statements of a flush, with what is bound to them. -/
inductive Statement where
  | upsertClockOffset (sample : ClockOffsetSample)
  | upsertTokenRegistry (token : TokenRegistration) (nowMs : ℤ)
  | upsertPairTokenOverride (pairId : ℤ) (tokenSide : TokenSide) (tokenId : String) (nowMs : ℤ)
  | insertResyncLog (log : ResyncLog)
  | upsertConnectionHealth (row : ConnectionHealthRow)
  | upsertChainMetrics (row : ChainMetricsRow)
  | insertRawEvents (batch : List Event)
  | insertTokenBars (batch : List Bars1sToken)
  | upsertPairBars (batch : List Bars1sPair)
  | insertShockEvent (event : ShockEvent)
  | updateShockEvent (update : ShockEventUpdate)
  | upsertOpinionResponse (row : OpinionResponseRow)
  | insertTradeAudit (row : TradeAuditRow)
  | insertCancelSnapshot (row : CancelTriggerSnapshotRow)

/-- The new row of a registration. -/
def TokenRegistration.row (token : TokenRegistration) (nowMs : ℤ) : TokenRegistryRow where
  tokenKey := token.tokenKey
  venue := token.venue
  externalTokenId := token.externalTokenId
  marketId := token.marketId
  outcomeSide := token.outcomeSide
  tokenSide := token.tokenSide
  firstSeenLocalTsMs := nowMs
  lastSeenLocalTsMs := nowMs

/-- `ON CONFLICT(token_key)`: known ids stay where the new row has none. -/
def TokenRegistryRow.merge (old new : TokenRegistryRow) : TokenRegistryRow :=
  { old with
    externalTokenId := new.externalTokenId.or old.externalTokenId
    marketId := new.marketId.or old.marketId
    outcomeSide := new.outcomeSide.or old.outcomeSide
    tokenSide := new.tokenSide
    lastSeenLocalTsMs := new.lastSeenLocalTsMs }

/-- The new row of an override, which names the token of one side. -/
def overrideRow (pairId : ℤ) (tokenSide : TokenSide) (tokenId : String) (nowMs : ℤ) :
    PairTokenOverrideRow where
  pairId := pairId
  mappingOverriddenFlag := 1
  opinionYesTokenIdOverride := if tokenSide = .yes then some tokenId else none
  opinionNoTokenIdOverride := if tokenSide = .no then some tokenId else none
  updatedLocalTsMs := nowMs

/-- `ON CONFLICT(pair_id)`. -/
def PairTokenOverrideRow.merge (old new : PairTokenOverrideRow) : PairTokenOverrideRow :=
  { old with
    mappingOverriddenFlag := 1
    opinionYesTokenIdOverride := new.opinionYesTokenIdOverride.or old.opinionYesTokenIdOverride
    opinionNoTokenIdOverride := new.opinionNoTokenIdOverride.or old.opinionNoTokenIdOverride
    updatedLocalTsMs := new.updatedLocalTsMs }

/-- The row that is bound for a token bar: an Opinion bar never says `LocalFallback`. -/
def boundTokenBar (bar : Bars1sToken) : Bars1sToken :=
  if bar.venue = .opinion ∧ bar.exchangeTsSource = .localFallback then
    { bar with exchangeTsSource := .estimated }
  else bar

/-- `UPDATE poly_shock_events`. -/
def ShockEvent.updated (event : ShockEvent) (update : ShockEventUpdate) : ShockEvent :=
  { event with
    startTsMs := update.startTsMs
    peakTsMs := update.peakTsMs
    magnitude := update.magnitude
    contextJson := update.contextJson
    direction := update.direction
    noiseFlag := update.noiseFlag
    status := update.status
    peakFinalized := update.peakFinalized }

/-- A conflict clause that takes every column from the new row. -/
def takeNew {α : Type} (_old new : α) : α := new

/-- What a statement does; `none` when it fails. -/
def Statement.exec (cfg : WriterConfig) (db : Database) : Statement → Option Database
  | .upsertClockOffset sample =>
    some { db with
      clockOffsets := upsertRow (fun s : ClockOffsetSample => (s.venue, s.localTsMs)) takeNew
        db.clockOffsets sample }
  | .upsertTokenRegistry token nowMs =>
    some { db with
      tokenRegistry := upsertRow TokenRegistryRow.tokenKey TokenRegistryRow.merge
        db.tokenRegistry (token.row nowMs) }
  -- The clause names the stored row's columns without their table.
  | .upsertPairTokenOverride pairId tokenSide tokenId nowMs =>
    if cfg.bareColumnsResolve then
      some { db with
        pairTokenOverrides := upsertRow PairTokenOverrideRow.pairId PairTokenOverrideRow.merge
          db.pairTokenOverrides (overrideRow pairId tokenSide tokenId nowMs) }
    else none
  | .insertResyncLog log =>
    some { db with orderbookResyncLog := db.orderbookResyncLog ++ [log] }
  | .upsertConnectionHealth row =>
    some { db with
      connectionHealth1s := upsertRow (fun r : ConnectionHealthRow => (r.venue, r.barSecond))
        takeNew db.connectionHealth1s row }
  | .upsertChainMetrics row =>
    some { db with
      chainMetrics := upsertRow (fun r : ChainMetricsRow => (r.chain, r.localTsMs)) takeNew
        db.chainMetrics row }
  | .insertRawEvents batch =>
    some { db with rawEvents := db.rawEvents ++ batch }
  -- No conflict clause: a row whose key is stored violates the primary key.
  | .insertTokenBars batch =>
    (insertRows tokenBarKey db.bars1sToken (batch.map boundTokenBar)).map fun table =>
      { db with bars1sToken := table }
  | .upsertPairBars batch =>
    some { db with
      bars1sPair := Lib.upsertRows Bars1sPair.key Pair.onConflict db.bars1sPair batch }
  -- No conflict clause here either.
  | .insertShockEvent event =>
    (insertRow ShockEvent.shockId db.polyShockEvents event).map fun table =>
      { db with polyShockEvents := table }
  | .updateShockEvent update =>
    some { db with
      polyShockEvents := fun id =>
        if id = update.shockId then (db.polyShockEvents id).map (·.updated update)
        else db.polyShockEvents id }
  | .upsertOpinionResponse row =>
    some { db with
      opinionResponse := upsertRow (fun r : OpinionResponseRow => (r.shockId, r.horizonS)) takeNew
        db.opinionResponse row }
  | .insertTradeAudit row =>
    some { db with tradeAudit := db.tradeAudit ++ [row] }
  | .insertCancelSnapshot row =>
    some { db with cancelTriggerSnapshot := db.cancelTriggerSnapshot ++ [row] }

/-- The statements of one flush in the order of `flush_buffers`. -/
def WriterBuffers.statements (stage : WriterBuffers) (nowMs : ℤ) : List Statement :=
  stage.clockBuf.map (fun (_, sample) => Statement.upsertClockOffset sample) ++
  stage.tokenRegistryBuf.map (fun (_, token) => Statement.upsertTokenRegistry token nowMs) ++
  stage.overrideBuf.map (fun (_, pairId, tokenSide, tokenId) =>
    Statement.upsertPairTokenOverride pairId tokenSide tokenId nowMs) ++
  stage.resyncBuf.map (fun (_, log) => Statement.insertResyncLog log) ++
  stage.healthBuf.map (fun (_, row) => Statement.upsertConnectionHealth row) ++
  stage.chainBuf.map (fun (_, row) => Statement.upsertChainMetrics row) ++
  ((stage.rawBuf.map Prod.snd).toChunks (max rawEventBatchMax 1)).map Statement.insertRawEvents ++
  ((dedupeRows tokenBarKey (stage.tokenBuf.map Prod.snd)).toChunks
    (max tokenBarBatchMax 1)).map Statement.insertTokenBars ++
  ((dedupeRows Bars1sPair.key (stage.pairBuf.map Prod.snd)).toChunks
    (max Pair.pairBarBatchMax 1)).map Statement.upsertPairBars ++
  stage.shockBuf.map (fun (_, event) => Statement.insertShockEvent event) ++
  stage.shockUpdateBuf.map (fun (_, update) => Statement.updateShockEvent update) ++
  stage.responseBuf.map (fun (_, row) => Statement.upsertOpinionResponse row) ++
  stage.tradeAuditBuf.map (fun (_, row) => Statement.insertTradeAudit row) ++
  stage.cancelSnapshotBuf.map (fun (_, row) => Statement.insertCancelSnapshot row)

/-! ## Flushing -/

/-- What the server fails during one flush. -/
structure PgFaults where
  beginFails : Bool
  /-- The number of the statement that fails. -/
  statementFails : Option ℕ
  commitFails : Bool
  deriving DecidableEq, Repr

def PgFaults.none : PgFaults := ⟨false, Option.none, false⟩

/-- Execute statements in order, up to the first that fails. -/
def runStatements (cfg : WriterConfig) : Option ℕ → Database → List Statement → Option Database
  | _, db, [] => some db
  | some 0, _, _ :: _ => none
  | some (n + 1), db, st :: rest =>
    (st.exec cfg db).bind fun db' => runStatements cfg (some n) db' rest
  | none, db, st :: rest =>
    (st.exec cfg db).bind fun db' => runStatements cfg none db' rest

/-- The writer's task: its buffers and the database. -/
structure Writer where
  buffers : WriterBuffers
  pg : Database

/-- `flush_buffers`: the writer after it, and the messages of a committed transaction. -/
def Writer.flushBuffers (cfg : WriterConfig) (faults : PgFaults) (nowMs : ℤ) (w : Writer) :
    Writer × List DbEnvelope :=
  if w.buffers.isEmpty then (w, [])
  else
    let stage := w.buffers
    let restored : Writer := ⟨WriterBuffers.empty.extend stage, w.pg⟩
    if faults.beginFails then (restored, [])
    else
      match runStatements cfg faults.statementFails w.pg (stage.statements nowMs) with
      | none => (restored, [])
      | some pg =>
        if faults.commitFails then (restored, []) else (⟨WriterBuffers.empty, pg⟩, stage.entries)

/-! ## Receiving -/

/-- A buffer has reached its threshold. -/
def WriterBuffers.full (b : WriterBuffers) : Bool :=
  decide (rawEventFlushThreshold ≤ b.rawBuf.length) ||
    decide (tokenBarFlushThreshold ≤ b.tokenBuf.length) ||
    decide (pairBarFlushThreshold ≤ b.pairBuf.length) ||
    decide (clockFlushThreshold ≤ b.clockBuf.length) ||
    decide (tokenRegistryFlushThreshold ≤ b.tokenRegistryBuf.length) ||
    decide (overrideFlushThreshold ≤ b.overrideBuf.length) ||
    decide (resyncFlushThreshold ≤ b.resyncBuf.length) ||
    decide (healthFlushThreshold ≤ b.healthBuf.length) ||
    decide (chainFlushThreshold ≤ b.chainBuf.length) ||
    decide (shockFlushThreshold ≤ b.shockBuf.length) ||
    decide (shockUpdateFlushThreshold ≤ b.shockUpdateBuf.length) ||
    decide (opinionResponseFlushThreshold ≤ b.responseBuf.length) ||
    decide (tradeAuditFlushThreshold ≤ b.tradeAuditBuf.length) ||
    decide (cancelSnapshotFlushThreshold ≤ b.cancelSnapshotBuf.length)

/-- The writer skips a message that is only kept while alpha capture is enabled. -/
def WriterConfig.skips (cfg : WriterConfig) (msg : DbMessage) : Bool :=
  msg.captureOnly && !cfg.alphaCaptureEnabled

/-- What a step of the writer hands on, kept apart by why it is acknowledged. -/
structure WriterOutput where
  (skipped committed : List DbEnvelope)
  deriving DecidableEq, Repr

/-- What the step sends to the queue. -/
def WriterOutput.acks (out : WriterOutput) : List ℤ :=
  (out.skipped ++ out.committed).map DbEnvelope.id

/-- Put a message into its buffer, or skip it. -/
def Writer.stash (cfg : WriterConfig) (w : Writer) (env : DbEnvelope) :
    Writer × List DbEnvelope :=
  if cfg.skips env.msg then (w, [env])
  else ({ w with buffers := w.buffers.push env.id env.msg }, [])

/-- `rx.recv()`: take one message, and flush once a buffer is full. -/
def Writer.receive (cfg : WriterConfig) (faults : PgFaults) (nowMs : ℤ) (w : Writer)
    (env : DbEnvelope) : Writer × WriterOutput :=
  let (stashed, skipped) := w.stash cfg env
  if stashed.buffers.full then
    let (flushed, committed) := stashed.flushBuffers cfg faults nowMs
    (flushed, ⟨skipped, committed⟩)
  else (stashed, ⟨skipped, []⟩)

/-- `ticker.tick()`. -/
def Writer.tick (cfg : WriterConfig) (faults : PgFaults) (nowMs : ℤ) (w : Writer) :
    Writer × WriterOutput :=
  let (flushed, committed) := w.flushBuffers cfg faults nowMs
  (flushed, ⟨[], committed⟩)

/-! ## What a step does to the messages -/

namespace Writer

variable {cfg : WriterConfig} {faults : PgFaults} {nowMs : ℤ}

/-- A flush commits all it took, or nothing and keeps everything. -/
theorem flushBuffers_cases (cfg : WriterConfig) (faults : PgFaults) (nowMs : ℤ) (w : Writer) :
    w.flushBuffers cfg faults nowMs = (w, []) ∨
      ∃ pg, runStatements cfg faults.statementFails w.pg (w.buffers.statements nowMs) = some pg ∧
        w.flushBuffers cfg faults nowMs = (⟨WriterBuffers.empty, pg⟩, w.buffers.entries) := by
  unfold flushBuffers
  split
  · exact .inl rfl
  · dsimp only
    split
    · exact .inl rfl
    · split
      · exact .inl rfl
      · rename_i pg hrun
        split
        · exact .inl rfl
        · exact .inr ⟨pg, hrun, rfl⟩

theorem flushBuffers_entries (w : Writer) :
    (w.flushBuffers cfg faults nowMs).2 ++ (w.flushBuffers cfg faults nowMs).1.buffers.entries =
      w.buffers.entries := by
  obtain h | ⟨pg, -, h⟩ := w.flushBuffers_cases cfg faults nowMs
  · rw [h, List.nil_append]
  · rw [h, WriterBuffers.entries_empty, List.append_nil]

theorem stash_entries (w : Writer) (env : DbEnvelope) :
    ((w.stash cfg env).2 ++ (w.stash cfg env).1.buffers.entries).Perm
      (env :: w.buffers.entries) := by
  unfold stash
  split
  · rw [List.singleton_append]
  · dsimp only
    rw [List.nil_append]
    exact w.buffers.entries_push env.id env.msg

/-- A step is a stash, a stash and a flush, or a flush alone. -/
theorem receive_cases (cfg : WriterConfig) (faults : PgFaults) (nowMs : ℤ) (w : Writer)
    (env : DbEnvelope) :
    w.receive cfg faults nowMs env = ((w.stash cfg env).1, ⟨(w.stash cfg env).2, []⟩) ∨
      w.receive cfg faults nowMs env =
        (((w.stash cfg env).1.flushBuffers cfg faults nowMs).1,
          ⟨(w.stash cfg env).2, ((w.stash cfg env).1.flushBuffers cfg faults nowMs).2⟩) := by
  unfold receive
  dsimp only
  split
  · exact .inr rfl
  · exact .inl rfl

/-- The message that the writer takes is skipped, committed or in the buffers afterwards, and no
other is lost or added. -/
theorem receive_entries (w : Writer) (env : DbEnvelope) :
    ((w.receive cfg faults nowMs env).2.skipped ++ (w.receive cfg faults nowMs env).2.committed ++
      (w.receive cfg faults nowMs env).1.buffers.entries).Perm (env :: w.buffers.entries) := by
  obtain h | h := w.receive_cases cfg faults nowMs env
  · rw [h]
    dsimp only
    rw [List.append_nil]
    exact w.stash_entries env
  · rw [h]
    dsimp only
    rw [List.append_assoc, flushBuffers_entries]
    exact w.stash_entries env

/-- A tick loses and adds no message. -/
theorem tick_entries (w : Writer) :
    (w.tick cfg faults nowMs).2.skipped ++ (w.tick cfg faults nowMs).2.committed ++
      (w.tick cfg faults nowMs).1.buffers.entries = w.buffers.entries := by
  unfold tick
  dsimp only
  rw [List.nil_append]
  exact w.flushBuffers_entries

theorem tick_fst (w : Writer) :
    (w.tick cfg faults nowMs).1 = (w.flushBuffers cfg faults nowMs).1 := by
  rw [tick]

theorem receive_skipped (w : Writer) {env e : DbEnvelope}
    (h : e ∈ (w.receive cfg faults nowMs env).2.skipped) : cfg.skips e.msg = true := by
  have hskipped : e ∈ (w.stash cfg env).2 := by
    obtain hcase | hcase := w.receive_cases cfg faults nowMs env
    · rwa [hcase] at h
    · rwa [hcase] at h
  unfold stash at hskipped
  split at hskipped
  · rename_i hskips
    rw [List.mem_singleton.mp hskipped]
    exact hskips
  · cases hskipped

end Writer

end AlphaMonitor.Store
