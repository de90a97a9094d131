import Mathlib.Data.List.Sort
import Mathlib.Data.List.Destutter
import AlphaMonitor.Lib.Run
import AlphaMonitor.Store.Writer

/-!
# The disk queue in front of the writer

Messages wait in memory until they are inserted into an SQLite table, are read back in
the order of their ids and handed to the writer, and their rows are deleted once the
writer has acknowledged them.  Either database can fail any statement.

The spooler and the writer are tasks of their own, joined by channels.  While the
spooler pumps, it sends one message at a time, so that the writer can take some of them
in between.

The JSON encoding of a message is a parameter.

## Main definitions

- `Spooler`: the state of `run_db_spooler`
- `StoreSystem`: the spooler, the disk, the channels and the writer
- `storeMachine`: every interleaving of their steps, with restarts
-/

namespace AlphaMonitor.Store

def dbWriterChannelCapacity : ℕ := 4096
def dbQueueInsertBatch : ℕ := 400
def dbQueueFetchBatch : ℕ := 1000
def dbQueueAckBatch : ℕ := 500
/-- How many values SQLite lets a statement bind. -/
def sqliteMaxBinds : ℕ := 32766

/-- `serde_json` on messages. -/
structure Codec (P : Type*) where
  encode : DbMessage → Option P
  decode : P → Option DbMessage

/-! ## The table -/

/-- A row of `db_queue`. -/
structure QueueRow (P : Type*) where
  id : ℤ
  payload : P
  deriving DecidableEq, Repr

/-- The table, its rows in the order of their ids, and the greatest id it has ever had:
`AUTOINCREMENT` goes on from there. -/
structure Disk (P : Type*) where
  rows : List (QueueRow P)
  sequence : ℤ

/-- Number the items of a list upwards from `n`. -/
def numberFrom {α : Type*} : ℤ → List α → List (ℤ × α)
  | _, [] => []
  | n, x :: xs => (n, x) :: numberFrom (n + 1) xs

namespace Disk

variable {P : Type*} (d : Disk P)

/-- `INSERT INTO db_queue`. -/
def insert (payloads : List P) : Disk P where
  rows := d.rows ++ (numberFrom (d.sequence + 1) payloads).map fun (id, p) => ⟨id, p⟩
  sequence := d.sequence + payloads.length

/-- `SELECT id, payload FROM db_queue WHERE id > ? ORDER BY id LIMIT ?`. -/
def fetch (lastSentId : ℤ) (limit : ℕ) : List (QueueRow P) :=
  (d.rows.filter fun row => lastSentId < row.id).take limit

/-- `delete_ids`: the rows left, and how many were deleted. -/
def deleteIds (ok : Bool) (ids : List ℤ) : Disk P × ℕ :=
  if ids.isEmpty then (d, 0)
  else if ok then
    let left := d.rows.filter fun row => row.id ∉ ids
    ({ d with rows := left }, d.rows.length - left.length)
  else (d, 0)

/-- The loop of `flush_ack`: the rows left, the ids to try again, and how many rows were deleted.
`oks` says which of the statements go through. -/
def deleteChunks (oks : ℕ → Bool) : Disk P → List (List ℤ) → Disk P × List ℤ × ℕ
  | d, [] => (d, [], 0)
  | d, chunk :: rest =>
    let (d', deleted) := d.deleteIds (oks 0) chunk
    let (d'', remaining, deletedRest) := deleteChunks (fun i => oks (i + 1)) d' rest
    (d'', (if deleted = 0 then chunk else []) ++ remaining, deleted + deletedRest)

end Disk

/-! ## The spooler -/

/-- `DbQueueStats`.  A counter that were to be decremented below zero would be negative here. -/
structure DbQueueStats where
  (inMem diskPending inFlight : ℤ)
  deriving DecidableEq, Repr

/-- Where `pump_send` is: outside it, in its first loop, before the fetch, or in its last loop. -/
inductive Pumping where
  | idle
  | leftovers
  | fetching
  | fetched
  deriving DecidableEq, Repr

/-- The variables of `run_db_spooler`. -/
structure Spooler where
  insertBuf : List DbMessage
  pendingSend : List DbEnvelope
  ackBuf : List ℤ
  lastSentId : ℤ
  stats : DbQueueStats
  pumping : Pumping
  deriving DecidableEq, Repr

/-- At the start only the rows on disk are counted. -/
def Spooler.start (diskRows : ℕ) : Spooler where
  insertBuf := []
  pendingSend := []
  ackBuf := []
  lastSentId := 0
  stats := ⟨0, diskRows, 0⟩
  pumping := .idle

section

variable {P : Type*} (codec : Codec P)

/-- The messages that can be serialised, with their payloads. -/
def serializable (batch : List DbMessage) : List (DbMessage × P) :=
  batch.filterMap fun msg => (codec.encode msg).map (msg, ·)

/-- `flush_insert`: the spooler and the disk after it, and the rows it inserted with the
messages they hold. -/
def flushInsert (ok : Bool) (s : Spooler) (d : Disk P) :
    Spooler × Disk P × List (ℤ × DbMessage × P) :=
  if s.insertBuf.isEmpty then (s, d, [])
  else
    let batch := serializable codec s.insertBuf
    let inMem := s.stats.inMem - (s.insertBuf.length - batch.length)
    if batch.isEmpty then
      ({ s with insertBuf := [], stats := { s.stats with inMem := inMem } }, d, [])
    -- Every row binds its payload and the time.
    else if ok ∧ 2 * batch.length ≤ sqliteMaxBinds then
      ({ s with
          insertBuf := []
          stats := { s.stats with
            inMem := inMem - batch.length
            diskPending := s.stats.diskPending + batch.length } },
        d.insert (batch.map Prod.snd), numberFrom (d.sequence + 1) batch)
    else
      ({ s with
          insertBuf := batch.map Prod.fst
          stats := { s.stats with inMem := inMem } }, d, [])

/-- The ids that `flush_ack` deletes, chunk by chunk. -/
def ackChunks (ackBuf : List ℤ) : List (List ℤ) :=
  ((ackBuf.insertionSort (· ≤ ·)).destutter (· ≠ ·)).toChunks dbQueueAckBatch

/-- `flush_ack`. -/
def flushAck (oks : ℕ → Bool) (s : Spooler) (d : Disk P) : Spooler × Disk P :=
  if s.ackBuf.isEmpty then (s, d)
  else
    let (d', remaining, deleted) := d.deleteChunks oks (ackChunks s.ackBuf)
    ({ s with
        ackBuf := remaining
        stats := { s.stats with diskPending := s.stats.diskPending - deleted } }, d')

/-- The messages of fetched rows. -/
def decoded (rows : List (QueueRow P)) : List DbEnvelope :=
  rows.filterMap fun row => (codec.decode row.payload).map (⟨row.id, ·⟩)

/-- `bad_ids`: the rows that cannot be decoded. -/
def badIds (rows : List (QueueRow P)) : List ℤ :=
  (rows.filter fun row => (codec.decode row.payload).isNone).map QueueRow.id

/-- `pump_send` between its two loops: read rows from disk, as many as the writer's channel has
room for, and delete those that cannot be decoded. -/
def fetchRows (fetchOk deleteOk : Bool) (capacity : ℕ) (s : Spooler) (d : Disk P) :
    Spooler × Disk P :=
  let limit := min (dbQueueFetchBatch - s.pendingSend.length) capacity
  let rows := d.fetch s.lastSentId limit
  if capacity = 0 ∨ dbQueueFetchBatch ≤ s.pendingSend.length ∨ fetchOk = false ∨ rows.isEmpty then
    ({ s with pumping := .idle }, d)
  else
    let (d', deleted) := d.deleteIds deleteOk (badIds codec rows)
    ({ s with
        pendingSend := s.pendingSend ++ decoded codec rows
        lastSentId := (rows.map QueueRow.id).getLastD s.lastSentId
        stats := { s.stats with diskPending := s.stats.diskPending - deleted }
        pumping := .fetched }, d')

end

/-! ## The system -/

/-- What has happened to messages and rows, for stating properties only. -/
structure History (P : Type*) where
  /-- Every message sent to the queue in this run of the process. -/
  accepted : List DbMessage
  /-- The messages inserted in this run, with their rows' ids. -/
  persisted : List (ℤ × DbMessage)
  /-- Every row that was ever on disk. -/
  rows : List (QueueRow P)
  /-- What was handed to the writer in this run, in order. -/
  handed : List DbEnvelope
  /-- What the writer skipped, and what its committed transactions wrote, in all runs. -/
  (skipped committed : List DbEnvelope)

/-- The queue and the writer with both databases. -/
structure StoreSystem (P : Type*) where
  ingest : List DbMessage
  spooler : Spooler
  disk : Disk P
  /-- The channel to the writer. -/
  writerRx : List DbEnvelope
  /-- The channel of acknowledgements. -/
  ackRx : List ℤ
  writer : Writer
  history : History P

inductive StoreEvent where
  /-- A task sends a message with `try_send_db`. -/
  | send (msg : DbMessage)
  | recvMsg (insertOk : Bool)
  | insertTick (insertOk : Bool)
  | sendTick
  /-- The next step of `pump_send`. -/
  | pump (fetchOk deleteOk : Bool)
  | recvAck (oks : ℕ → Bool)
  | ackTick (oks : ℕ → Bool)
  | writerRecv (faults : PgFaults) (nowMs : ℤ)
  | writerTick (faults : PgFaults) (nowMs : ℤ)
  /-- The process stops at this point and starts again. -/
  | restart

/-- A step of the spooler or the writer. -/
def StoreEvent.inner : StoreEvent → Bool
  | .send _ | .restart => false
  | .recvMsg _ | .insertTick _ | .sendTick | .pump .. | .recvAck _ | .ackTick _ => true
  | .writerRecv .. | .writerTick .. => true

namespace StoreSystem

variable {P : Type*}

/-- A process starts on what is on disk and in Postgres. -/
def start (disk : Disk P) (pg : Database) (history : History P) : StoreSystem P where
  ingest := []
  spooler := Spooler.start disk.rows.length
  disk := disk
  writerRx := []
  ackRx := []
  writer := ⟨WriterBuffers.empty, pg⟩
  history := { history with accepted := [], persisted := [], handed := [] }

/-- A message enters the channel to the spooler. -/
def accept (t : StoreSystem P) (msg : DbMessage) : StoreSystem P :=
  { t with
    ingest := t.ingest ++ [msg]
    history := { t.history with accepted := t.history.accepted ++ [msg] } }

/-- The spooler takes a message; `ingest` are those behind it. -/
def bufferMsg (t : StoreSystem P) (msg : DbMessage) (ingest : List DbMessage) : StoreSystem P :=
  { t with
    ingest := ingest
    spooler := { t.spooler with
      insertBuf := t.spooler.insertBuf ++ [msg]
      stats := { t.spooler.stats with inMem := t.spooler.stats.inMem + 1 } } }

/-- Take what `flushInsert` did over into the system. -/
def insertFlushed (t : StoreSystem P) (codec : Codec P) (ok : Bool) : StoreSystem P :=
  let (spooler, disk, inserted) := flushInsert codec ok t.spooler t.disk
  { t with
    spooler := spooler
    disk := disk
    history := { t.history with
      persisted := t.history.persisted ++ inserted.map fun (id, msg, _) => (id, msg)
      rows := t.history.rows ++ inserted.map fun (id, _, payload) => ⟨id, payload⟩ } }

/-- `pump_send` goes on at another place. -/
def pumpAt (t : StoreSystem P) (pumping : Pumping) : StoreSystem P :=
  { t with spooler := { t.spooler with pumping := pumping } }

/-- `try_send` went through; `rest` is still pending. -/
def handOver (t : StoreSystem P) (env : DbEnvelope) (rest : List DbEnvelope) : StoreSystem P :=
  { t with
    spooler := { t.spooler with
      pendingSend := rest
      stats := { t.spooler.stats with inFlight := t.spooler.stats.inFlight + 1 } }
    writerRx := t.writerRx ++ [env]
    history := { t.history with handed := t.history.handed ++ [env] } }

/-- Take what `fetchRows` did over into the system. -/
def rowsFetched (t : StoreSystem P) (codec : Codec P) (fetchOk deleteOk : Bool) : StoreSystem P :=
  let (spooler, disk) := fetchRows codec fetchOk deleteOk
    (dbWriterChannelCapacity - t.writerRx.length) t.spooler t.disk
  { t with spooler := spooler, disk := disk }

/-- The spooler takes an acknowledgement; `ackRx` are those behind it. -/
def bufferAck (t : StoreSystem P) (ackId : ℤ) (ackRx : List ℤ) : StoreSystem P :=
  { t with
    ackRx := ackRx
    spooler := { t.spooler with
      ackBuf := t.spooler.ackBuf ++ [ackId]
      stats := { t.spooler.stats with inFlight := t.spooler.stats.inFlight - 1 } } }

/-- Take what `flushAck` did over into the system. -/
def acksFlushed (t : StoreSystem P) (oks : ℕ → Bool) : StoreSystem P :=
  let (spooler, disk) := flushAck oks t.spooler t.disk
  { t with spooler := spooler, disk := disk }

/-- Take a step of the writer over into the system; `writerRx` is what it has not taken yet. -/
def wrote (t : StoreSystem P) (writerRx : List DbEnvelope) (result : Writer × WriterOutput) :
    StoreSystem P :=
  { t with
    writerRx := writerRx
    writer := result.1
    ackRx := t.ackRx ++ result.2.acks
    history := { t.history with
      skipped := t.history.skipped ++ result.2.skipped
      committed := t.history.committed ++ result.2.committed } }

/-- One iteration of a loop of `pump_send`; `afterwards` is where it goes once nothing is
pending. -/
def sendPending (t : StoreSystem P) (afterwards : Pumping) : StoreSystem P :=
  match t.spooler.pendingSend with
  | [] => t.pumpAt afterwards
  | env :: rest =>
    if t.writerRx.length < dbWriterChannelCapacity then t.handOver env rest
    -- `TrySendError::Full`: the message goes back to the front.
    else t.pumpAt .idle

/-- One step of `pump_send`. -/
def pump (t : StoreSystem P) (codec : Codec P) (fetchOk deleteOk : Bool) : Option (StoreSystem P) :=
  match t.spooler.pumping with
  | .idle => none
  | .leftovers => some (t.sendPending .fetching)
  | .fetching => some (t.rowsFetched codec fetchOk deleteOk)
  | .fetched => some (t.sendPending .idle)

/-- `Some(msg) = ingest_rx.recv()`. -/
def recvMsg (t : StoreSystem P) (codec : Codec P) (insertOk : Bool) : Option (StoreSystem P) :=
  match t.ingest with
  | [] => none
  | msg :: ingest =>
    let t' := t.bufferMsg msg ingest
    some (if dbQueueInsertBatch ≤ t'.spooler.insertBuf.length then t'.insertFlushed codec insertOk
      else t')

/-- `Some(ack_id) = ack_rx.recv()`. -/
def recvAck (t : StoreSystem P) (oks : ℕ → Bool) : Option (StoreSystem P) :=
  match t.ackRx with
  | [] => none
  | ackId :: ackRx =>
    let t' := t.bufferAck ackId ackRx
    some (if dbQueueAckBatch ≤ t'.spooler.ackBuf.length then t'.acksFlushed oks else t')

/-- One branch of `select!` is taken only outside `pump_send`. -/
def whenIdle (t : StoreSystem P) (next : Option (StoreSystem P)) : Option (StoreSystem P) :=
  if t.spooler.pumping = .idle then next else none

/-- `Some(envelope) = rx.recv()`. -/
def writerRecv (t : StoreSystem P) (cfg : WriterConfig) (faults : PgFaults) (nowMs : ℤ) :
    Option (StoreSystem P) :=
  match t.writerRx with
  | [] => none
  | env :: writerRx => some (t.wrote writerRx (t.writer.receive cfg faults nowMs env))

/-- One step of one of the tasks. -/
def step (codec : Codec P) (cfg : WriterConfig) (t : StoreSystem P) :
    StoreEvent → Option (StoreSystem P)
  | .send msg => some (t.accept msg)
  | .recvMsg insertOk => t.whenIdle (t.recvMsg codec insertOk)
  | .insertTick insertOk => t.whenIdle (some (t.insertFlushed codec insertOk))
  | .sendTick => t.whenIdle (some (t.pumpAt .leftovers))
  | .pump fetchOk deleteOk => t.pump codec fetchOk deleteOk
  | .recvAck oks => t.whenIdle (t.recvAck oks)
  | .ackTick oks => t.whenIdle (some (t.acksFlushed oks))
  | .writerRecv faults nowMs => t.writerRecv cfg faults nowMs
  | .writerTick faults nowMs => some (t.wrote t.writerRx (t.writer.tick cfg faults nowMs))
  | .restart => some (start t.disk t.writer.pg t.history)

/-! ## Moves -/

/-- What a step is made of: the spooler takes a message or an acknowledgement and may then flush,
any other step is one move.  A send and a restart come from outside. -/
inductive MoveOf (codec : Codec P) (cfg : WriterConfig) :
    StoreSystem P → Bool → StoreSystem P → Prop
  | accepted (t msg) : MoveOf codec cfg t true (t.accept msg)
  | buffered {t outside msg ingest} (h : t.ingest = msg :: ingest) :
      MoveOf codec cfg t outside (t.bufferMsg msg ingest)
  | inserted (t) {outside} (ok) : MoveOf codec cfg t outside (t.insertFlushed codec ok)
  | pumped (t) {outside} (pumping) : MoveOf codec cfg t outside (t.pumpAt pumping)
  | handed {t outside env rest} (h : t.spooler.pendingSend = env :: rest) :
      MoveOf codec cfg t outside (t.handOver env rest)
  | fetched (t) {outside} (fetchOk deleteOk) :
      MoveOf codec cfg t outside (t.rowsFetched codec fetchOk deleteOk)
  | acked {t outside ackId ackRx} (h : t.ackRx = ackId :: ackRx) :
      MoveOf codec cfg t outside (t.bufferAck ackId ackRx)
  | deleted (t) {outside} (oks) : MoveOf codec cfg t outside (t.acksFlushed oks)
  | received {t outside env writerRx} (h : t.writerRx = env :: writerRx) (faults nowMs) :
      MoveOf codec cfg t outside (t.wrote writerRx (t.writer.receive cfg faults nowMs env))
  | ticked (t) {outside} (faults nowMs) :
      MoveOf codec cfg t outside (t.wrote t.writerRx (t.writer.tick cfg faults nowMs))
  | restarted (t) : MoveOf codec cfg t true (start t.disk t.writer.pg t.history)

/-- Any move. -/
abbrev Move (codec : Codec P) (cfg : WriterConfig) (t u : StoreSystem P) : Prop :=
  MoveOf codec cfg t true u

/-- The moves of the spooler and the writer themselves. -/
abbrev InnerMove (codec : Codec P) (cfg : WriterConfig) (t u : StoreSystem P) : Prop :=
  MoveOf codec cfg t false u

variable {codec : Codec P} {cfg : WriterConfig} {t t' : StoreSystem P}

theorem whenIdle_eq_some {next : Option (StoreSystem P)} (h : t.whenIdle next = some t') :
    next = some t' := by
  unfold whenIdle at h
  split at h
  · exact h
  · cases h

theorem MoveOf.move {u : StoreSystem P} (h : InnerMove codec cfg t u) : Move codec cfg t u := by
  cases h with
  | buffered h => exact .buffered h
  | inserted ok => exact .inserted t ok
  | pumped pumping => exact .pumped t pumping
  | handed h => exact .handed h
  | fetched fetchOk deleteOk => exact .fetched t fetchOk deleteOk
  | acked h => exact .acked h
  | deleted oks => exact .deleted t oks
  | received h faults nowMs => exact .received h faults nowMs
  | ticked faults nowMs => exact .ticked t faults nowMs

theorem sendPending_move (t : StoreSystem P) (afterwards : Pumping) :
    InnerMove codec cfg t (t.sendPending afterwards) := by
  unfold sendPending
  split
  · exact .pumped t afterwards
  · rename_i hpending
    split
    · exact .handed hpending
    · exact .pumped t .idle

/-- What every inner move keeps, every step but a send and a restart keeps. -/
theorem inner_step_inv (Inv : StoreSystem P → Prop)
    (hmove : ∀ t u, Inv t → InnerMove codec cfg t u → Inv u) {e : StoreEvent}
    (he : e.inner = true) (hi : Inv t) (h : step codec cfg t e = some t') : Inv t' := by
  cases e with
  | send msg => cases he
  | recvMsg insertOk =>
    have hrecv := whenIdle_eq_some h
    unfold recvMsg at hrecv
    split at hrecv
    · cases hrecv
    · rename_i hingest
      have hbuffered := hmove _ _ hi (.buffered hingest)
      cases hrecv
      split
      · exact hmove _ _ hbuffered (.inserted _ insertOk)
      · exact hbuffered
  | insertTick insertOk =>
    cases whenIdle_eq_some h
    exact hmove _ _ hi (.inserted t insertOk)
  | sendTick =>
    cases whenIdle_eq_some h
    exact hmove _ _ hi (.pumped t .leftovers)
  | pump fetchOk deleteOk =>
    simp only [step, pump] at h
    split at h
    · cases h
    · cases h
      exact hmove _ _ hi (sendPending_move t .fetching)
    · cases h
      exact hmove _ _ hi (.fetched t fetchOk deleteOk)
    · cases h
      exact hmove _ _ hi (sendPending_move t .idle)
  | recvAck oks =>
    have hrecv := whenIdle_eq_some h
    unfold recvAck at hrecv
    split at hrecv
    · cases hrecv
    · rename_i hacks
      have hbuffered := hmove _ _ hi (.acked hacks)
      cases hrecv
      split
      · exact hmove _ _ hbuffered (.deleted _ oks)
      · exact hbuffered
  | ackTick oks =>
    cases whenIdle_eq_some h
    exact hmove _ _ hi (.deleted t oks)
  | writerRecv faults nowMs =>
    simp only [step, writerRecv] at h
    split at h
    · cases h
    · rename_i hrx
      cases h
      exact hmove _ _ hi (.received hrx faults nowMs)
  | writerTick faults nowMs =>
    cases h
    exact hmove _ _ hi (.ticked t faults nowMs)
  | restart => cases he

/-- What every move keeps, a step keeps. -/
theorem step_inv (Inv : StoreSystem P → Prop) (hmove : ∀ t u, Inv t → Move codec cfg t u → Inv u)
    {e : StoreEvent} (hi : Inv t) (h : step codec cfg t e = some t') : Inv t' := by
  by_cases he : e.inner = true
  · exact inner_step_inv Inv (fun t u hi hinner => hmove t u hi hinner.move) he hi h
  · cases e with
    | send msg =>
      cases h
      exact hmove _ _ hi (.accepted t msg)
    | restart =>
      cases h
      exact hmove _ _ hi (.restarted t)
    | recvMsg | insertTick | sendTick | pump | recvAck | ackTick | writerRecv | writerTick =>
      exact absurd rfl he

end StoreSystem

/-- A first start: any rows that earlier versions of the program left on disk, and any content
of Postgres. -/
structure StoreSystem.Initial {P : Type*} (t : StoreSystem P) : Prop where
  started : ∃ disk pg, t = StoreSystem.start disk pg ⟨[], [], disk.rows, [], [], []⟩
  sorted : (t.disk.rows.map QueueRow.id).Pairwise (· < ·)
  numbered : ∀ row ∈ t.disk.rows, 0 < row.id ∧ row.id ≤ t.disk.sequence
  sequence_nonneg : 0 ≤ t.disk.sequence

/-- The spooler and the writer as a machine. -/
def storeMachine {P : Type*} (codec : Codec P) (cfg : WriterConfig) :
    Lib.Machine (StoreSystem P) StoreEvent where
  init := StoreSystem.Initial
  step := StoreSystem.step codec cfg

/-- What holds at the start and is kept by every move holds in every reachable state. -/
theorem storeMachine_inv {P : Type*} {codec : Codec P} {cfg : WriterConfig}
    (Inv : StoreSystem P → Prop) (hinit : ∀ t : StoreSystem P, t.Initial → Inv t)
    (hmove : ∀ t u, Inv t → StoreSystem.Move codec cfg t u → Inv u)
    {t : StoreSystem P} (h : (storeMachine codec cfg).Reachable t) : Inv t :=
  (storeMachine codec cfg).inv_of_reachable hinit
    (fun _ _ _ hi hstep => StoreSystem.step_inv Inv hmove hi hstep) h

end AlphaMonitor.Store
