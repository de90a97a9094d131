import AlphaMonitor.Store.Transactions

/-!
# Token overrides across a restart

Each override message names the token of one side of a pair.  The writer's upsert merges it into
the row of the pair, with columns that it does not qualify.  Postgres finds these ambiguous and
rejects the statement, and with it the whole transaction: no override is ever stored, and nothing
else that waits beside one in the buffers.  A restarted process has the tokens of discovery.

## Main results

- `flushBuffers_stuck`: a flush with an override in the buffers stores nothing
- `overrides_round_trip_iff`: when every side gets the token it should have
-/

namespace AlphaMonitor.Store

variable {cfg : WriterConfig}

/-! ## Reading the overrides back -/

/-- The tokens of a pair, as discovery has them. -/
structure PairTokens where
  pairId : ℤ
  (opinionYesTokenId opinionNoTokenId : Option String)
  deriving DecidableEq, Repr

/-- `load_pair_overrides`: the flagged rows. -/
def loadPairOverrides (pg : Database) (pairId : ℤ) : Option (Option String × Option String) :=
  ((pg.pairTokenOverrides pairId).filter fun row => decide (row.mappingOverriddenFlag = 1)).map
    fun row => (row.opinionYesTokenIdOverride, row.opinionNoTokenIdOverride)

/-- What the start of the program makes of a discovered pair. -/
def PairTokens.applyOverrides (pair : PairTokens)
    (overrides : ℤ → Option (Option String × Option String)) : PairTokens :=
  -- the row replaces both tokens, an empty column too
  match overrides pair.pairId with
  | some (yes, no) => { pair with opinionYesTokenId := yes, opinionNoTokenId := no }
  | none => pair

/-- The token of a side. -/
def PairTokens.token (pair : PairTokens) : TokenSide → Option String
  | .yes => pair.opinionYesTokenId
  | .no => pair.opinionNoTokenId
  | .unknown => none

/-! ## Overrides of one pair -/

theorem filterMap_cons_eq {α β : Type*} (f : α → Option β) (x : α) (xs : List α) :
    (x :: xs).filterMap f = (f x).toList ++ xs.filterMap f := by
  rw [List.filterMap_cons]
  cases f x <;> rfl

/-- The side and token of an override of the pair. -/
def overrideOf (pairId : ℤ) : DbMessage → Option (TokenSide × String)
  | .pairTokenOverride pairId' tokenSide tokenId =>
    if pairId' = pairId then some (tokenSide, tokenId) else none
  | _ => none

/-- The last override that names a side. -/
def lastNaming (side : TokenSide) (overrides : List (TokenSide × String)) : Option String :=
  (overrides.reverse.find? fun o => decide (o.1 = side)).map Prod.snd

/-- The overrides of the pair that wait in the buffers. -/
def WriterBuffers.overridesOf (b : WriterBuffers) (pairId : ℤ) : List (TokenSide × String) :=
  b.overrideBuf.filterMap fun (_, pairId', tokenSide, tokenId) =>
    if pairId' = pairId then some (tokenSide, tokenId) else none

/-- The override of the pair that a statement writes. -/
def Statement.overrideOf (pairId : ℤ) : Statement → Option (TokenSide × String)
  | .upsertPairTokenOverride pairId' tokenSide tokenId _ =>
    if pairId' = pairId then some (tokenSide, tokenId) else none
  | _ => none

/-! ## Flushes -/

/-- What Postgres executes is no upsert of an override, and leaves their table alone. -/
theorem Statement.exec_overrides (hpostgres : cfg.bareColumnsResolve = false) {st : Statement}
    {pg pg' : Database} (h : st.exec cfg pg = some pg') (pairId : ℤ) :
    st.overrideOf pairId = none ∧ pg'.pairTokenOverrides = pg.pairTokenOverrides := by
  cases st with
  | upsertPairTokenOverride pairId' tokenSide tokenId nowMs =>
    simp only [exec, hpostgres] at h
    cases h
  | insertTokenBars batch =>
    obtain ⟨table, -, rfl⟩ := Option.map_eq_some_iff.mp h
    exact ⟨rfl, rfl⟩
  | insertShockEvent event =>
    obtain ⟨table, -, rfl⟩ := Option.map_eq_some_iff.mp h
    exact ⟨rfl, rfl⟩
  | upsertClockOffset | upsertTokenRegistry | insertResyncLog | upsertConnectionHealth
  | upsertChainMetrics | insertRawEvents | upsertPairBars | updateShockEvent
  | upsertOpinionResponse | insertTradeAudit | insertCancelSnapshot =>
    cases h
    exact ⟨rfl, rfl⟩

theorem runStatements_overrides (hpostgres : cfg.bareColumnsResolve = false)
    {sts : List Statement} {pg pg' : Database} (hrun : runStatements cfg none pg sts = some pg')
    (pairId : ℤ) : sts.filterMap (Statement.overrideOf pairId) = [] ∧
      pg'.pairTokenOverrides = pg.pairTokenOverrides := by
  induction sts generalizing pg with
  | nil =>
    cases hrun
    exact ⟨rfl, rfl⟩
  | cons st sts ih =>
    obtain ⟨middle, hexec, hrest⟩ := Option.bind_eq_some_iff.mp hrun
    obtain ⟨hnone, hsame⟩ := Statement.exec_overrides hpostgres hexec pairId
    obtain ⟨hnil, htable⟩ := ih hrest
    exact ⟨by rw [filterMap_cons_eq, hnone, hnil]; rfl, htable.trans hsame⟩

/-- A flush writes the buffered overrides in their order. -/
theorem filterMap_overrideOf_statements (b : WriterBuffers) (pairId nowMs : ℤ) :
    (b.statements nowMs).filterMap (Statement.overrideOf pairId) = b.overridesOf pairId := by
  -- of all statements only one kind names an override
  have hnone : ∀ {α : Type} (f : α → Statement) (xs : List α),
      (∀ x, (f x).overrideOf pairId = none) →
        (xs.map f).filterMap (Statement.overrideOf pairId) = [] := by
    intro α f xs h
    rw [List.filterMap_map]
    exact List.filterMap_eq_nil_iff.mpr fun x _ => h x
  unfold WriterBuffers.statements
  simp only [List.filterMap_append]
  rw [hnone _ b.clockBuf fun _ => rfl, hnone _ b.tokenRegistryBuf fun _ => rfl,
    hnone _ b.resyncBuf fun _ => rfl, hnone _ b.healthBuf fun _ => rfl,
    hnone _ b.chainBuf fun _ => rfl, hnone Statement.insertRawEvents _ fun _ => rfl,
    hnone Statement.insertTokenBars _ fun _ => rfl, hnone Statement.upsertPairBars _ fun _ => rfl,
    hnone _ b.shockBuf fun _ => rfl, hnone _ b.shockUpdateBuf fun _ => rfl,
    hnone _ b.responseBuf fun _ => rfl, hnone _ b.tradeAuditBuf fun _ => rfl,
    hnone _ b.cancelSnapshotBuf fun _ => rfl]
  simp only [List.nil_append, List.append_nil, List.filterMap_map]
  rfl

/-- A flush leaves the stored overrides as they are. -/
theorem flushBuffers_overrides (hpostgres : cfg.bareColumnsResolve = false) (w : Writer)
    (faults : PgFaults) (nowMs : ℤ) :
    (w.flushBuffers cfg faults nowMs).1.pg.pairTokenOverrides = w.pg.pairTokenOverrides := by
  obtain hsame | ⟨pg, hrun, hdone⟩ := w.flushBuffers_cases cfg faults nowMs
  · rw [hsame]
  · rw [hdone]
    exact (runStatements_overrides hpostgres (runStatements_of_fault hrun) 0).2

/-- While an override waits, no flush stores anything. -/
theorem flushBuffers_stuck (hpostgres : cfg.bareColumnsResolve = false) {w : Writer} {pairId : ℤ}
    (hwaits : w.buffers.overridesOf pairId ≠ []) (faults : PgFaults) (nowMs : ℤ) :
    w.flushBuffers cfg faults nowMs = (w, []) := by
  refine (w.flushBuffers_cases cfg faults nowMs).resolve_right ?_
  rintro ⟨pg, hrun, -⟩
  have hnil := (runStatements_overrides hpostgres (runStatements_of_fault hrun) pairId).1
  rw [filterMap_overrideOf_statements] at hnil
  exact hwaits hnil

/-! ## Runs of the writer -/

/-- What happens to the writer: a turn of its loop on a message or a tick, with what the server
fails in it, or a restart of the program, which loses the buffers. -/
inductive WriterTurn where
  | received (env : DbEnvelope) (faults : PgFaults) (nowMs : ℤ)
  | tick (faults : PgFaults) (nowMs : ℤ)
  | restart

def Writer.turn (cfg : WriterConfig) (w : Writer) : WriterTurn → Writer
  | .received env faults nowMs => (w.receive cfg faults nowMs env).1
  | .tick faults nowMs => (w.tick cfg faults nowMs).1
  | .restart => { w with buffers := WriterBuffers.empty }

/-- The writers of one process after the other. -/
def writerMachine (cfg : WriterConfig) : Lib.Machine Writer WriterTurn where
  init w := w.buffers = WriterBuffers.empty
  step w turn := some (w.turn cfg turn)

/-- The override of the pair that a turn receives. -/
def WriterTurn.overrideOf (pairId : ℤ) : WriterTurn → Option (TokenSide × String)
  | .received env _ _ => Store.overrideOf pairId env.msg
  | _ => none

/-- The overrides of the pair that a run received, in order. -/
def receivedOverrides (pairId : ℤ) (turns : List WriterTurn) : List (TokenSide × String) :=
  turns.filterMap (WriterTurn.overrideOf pairId)

/-- What has been stored for pairs is still all there was in the beginning. -/
theorem turn_overrides (hpostgres : cfg.bareColumnsResolve = false) (w : Writer)
    (turn : WriterTurn) : (w.turn cfg turn).pg.pairTokenOverrides = w.pg.pairTokenOverrides := by
  cases turn with
  | restart => rfl
  | tick faults nowMs =>
    change (w.tick cfg faults nowMs).1.pg.pairTokenOverrides = _
    rw [Writer.tick_fst]
    exact flushBuffers_overrides hpostgres w faults nowMs
  | received env faults nowMs =>
    have hstash : (w.stash cfg env).1.pg = w.pg := by
      unfold Writer.stash
      split
      · rfl
      · rfl
    change (w.receive cfg faults nowMs env).1.pg.pairTokenOverrides = _
    -- the message stays in the buffer, or fills it
    obtain hcase | hcase := w.receive_cases cfg faults nowMs env
    · rw [hcase, hstash]
    · rw [hcase, flushBuffers_overrides hpostgres _ faults nowMs, hstash]

theorem run_overrides (hpostgres : cfg.bareColumnsResolve = false) {w w' : Writer}
    {turns : List WriterTurn} (hrun : (writerMachine cfg).run w turns = some w') :
    w'.pg.pairTokenOverrides = w.pg.pairTokenOverrides :=
  (writerMachine cfg).inv_of_runMeets
    (fun t : Writer => t.pg.pairTokenOverrides = w.pg.pairTokenOverrides)
    (fun _ turn _ h _ hstep => by
      cases hstep
      exact (turn_overrides hpostgres _ turn).trans h)
    rfl ((writerMachine cfg).runMeets_trivial w turns) hrun

/-! ## The round trip -/

/-- The token that a side should have after a restart. -/
def expectedToken (pair : PairTokens) (overrides : List (TokenSide × String)) (side : TokenSide) :
    Option String :=
  (lastNaming side overrides).or (pair.token side)

/-- The pair after a restart, on what is stored. -/
def PairTokens.reloaded (pair : PairTokens) (pg : Database) : PairTokens :=
  pair.applyOverrides (loadPairOverrides pg)

theorem reloaded_of_absent {pair : PairTokens} {pg : Database}
    (h : pg.pairTokenOverrides pair.pairId = none) : pair.reloaded pg = pair := by
  unfold PairTokens.reloaded PairTokens.applyOverrides loadPairOverrides
  rw [h]
  rfl

/-- After any run on Postgres, with any restarts in it, a restarted program has the tokens that it
should have exactly when no override names another token than discovery's. -/
theorem overrides_round_trip_iff {cfg : WriterConfig} (hpostgres : cfg.bareColumnsResolve = false)
    (pair : PairTokens) {pg : Database} {turns : List WriterTurn} {w : Writer}
    (hnew : pg.pairTokenOverrides pair.pairId = none)
    (hrun : (writerMachine cfg).run ⟨WriterBuffers.empty, pg⟩ turns = some w) :
    (∀ side, side ≠ .unknown → (pair.reloaded w.pg).token side =
        expectedToken pair (receivedOverrides pair.pairId turns) side) ↔
      ∀ side, side ≠ .unknown → ∀ tokenId,
        lastNaming side (receivedOverrides pair.pairId turns) = some tokenId →
          pair.token side = some tokenId := by
  have habsent : w.pg.pairTokenOverrides pair.pairId = none := by
    rw [run_overrides hpostgres hrun]
    exact hnew
  refine forall_congr' fun side => forall_congr' fun _ => ?_
  rw [reloaded_of_absent habsent, expectedToken]
  cases lastNaming side (receivedOverrides pair.pairId turns) with
  | none => exact iff_of_true rfl fun tokenId hnone => by cases hnone
  | some tokenId =>
    rw [Option.some_or]
    constructor
    · intro h other hother
      cases hother
      exact h
    · intro h
      exact h tokenId rfl

/-! ### An override that is lost -/

/-- The writer on Postgres. -/
def postgres : WriterConfig := ⟨false, false⟩

/-- A pair with both tokens. -/
def discoveredPair : PairTokens := ⟨7, some "yes-token", some "no-token"⟩

/-- An override arrives, ticks flush it, and the program is restarted. -/
def overrideTurns (tokenId : String) : List WriterTurn :=
  [.received ⟨1, .pairTokenOverride 7 .yes tokenId⟩ PgFaults.none 0, .tick PgFaults.none 1,
    .tick PgFaults.none 2, .restart]

/-- The writer after them. -/
def afterOverride (tokenId : String) : Writer :=
  (overrideTurns tokenId).foldl (Writer.turn postgres) ⟨WriterBuffers.empty, Database.fresh⟩

/-- An override by the same token does no harm. -/
theorem overrides_round_trip_same :
    (discoveredPair.reloaded (afterOverride "yes-token").pg).token .yes = some "yes-token" ∧
      (discoveredPair.reloaded (afterOverride "yes-token").pg).token .no = some "no-token" := by
  have hnamed : ∀ side : TokenSide, side ≠ .unknown → ∀ tokenId,
      lastNaming side [(.yes, "yes-token")] = some tokenId →
        discoveredPair.token side = some tokenId := by
    intro side hside tokenId hlast
    cases side with
    | yes =>
      cases hlast
      rfl
    | no => cases hlast
    | unknown => exact absurd rfl hside
  have hall := (@overrides_round_trip_iff postgres rfl discoveredPair Database.fresh
    (overrideTurns "yes-token") _ rfl rfl).mpr hnamed
  exact ⟨hall .yes (by decide), hall .no (by decide)⟩

/-- A new token for the yes side is not stored: after the restart the pair has the old one. -/
theorem override_lost :
    receivedOverrides 7 (overrideTurns "new-yes") = [(.yes, "new-yes")] ∧
      (discoveredPair.reloaded (afterOverride "new-yes").pg).token .yes = some "yes-token" ∧
      expectedToken discoveredPair [(.yes, "new-yes")] .yes = some "new-yes" := by
  decide +kernel

end AlphaMonitor.Store
