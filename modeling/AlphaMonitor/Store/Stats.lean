import AlphaMonitor.Store.Delivery

/-!
# The statistics of the disk queue

`DbQueueStats` is kept beside the queue: every operation adjusts the counters by itself, on
the branches where it succeeds.  They are unsigned in the source; here they are integers, so
that a decrement below zero would show.

An operation first increments and then decrements each counter, so that a counter that is not
negative after a step was not negative within it.

## Main results

- `queue_stats_exact`: the counters say what is in memory, on disk and on its way
-/

namespace AlphaMonitor.Store

variable {P : Type*} {codec : Codec P} {cfg : WriterConfig}

/-! ## Deleting -/

theorem Disk.deleteIds_count (d : Disk P) (ok : Bool) (ids : List ℤ) :
    (d.deleteIds ok ids).1.rows.length + (d.deleteIds ok ids).2 = d.rows.length := by
  unfold deleteIds
  split
  · -- the statement failed: nothing is deleted, nothing counted
    exact Nat.add_zero _
  · split
    · exact Nat.add_sub_of_le (List.length_filter_le _ _)
    · exact Nat.add_zero _

theorem Disk.deleteChunks_count (d : Disk P) (oks : ℕ → Bool) (chunks : List (List ℤ)) :
    (d.deleteChunks oks chunks).1.rows.length + (d.deleteChunks oks chunks).2.2 =
      d.rows.length := by
  induction chunks generalizing oks d with
  | nil => exact Nat.add_zero _
  | cons chunk rest ih =>
    -- one chunk, then the rest on what it leaves
    have hchunk := d.deleteIds_count (oks 0) chunk
    have hrest := ih (d.deleteIds (oks 0) chunk).1 (fun i => oks (i + 1))
    change ((d.deleteIds (oks 0) chunk).1.deleteChunks (fun i => oks (i + 1)) rest).1.rows.length +
      ((d.deleteIds (oks 0) chunk).2 +
        ((d.deleteIds (oks 0) chunk).1.deleteChunks (fun i => oks (i + 1)) rest).2.2) = _
    omega

/-! ## Inserting -/

/-- An insert flush moves the messages from one count to the other, or leaves both counts. -/
theorem flushInsert_counts (codec : Codec P) (ok : Bool) {s : Spooler} {d : Disk P}
    (hmem : s.stats.inMem = s.insertBuf.length) (hdisk : s.stats.diskPending = d.rows.length) :
    (flushInsert codec ok s d).1.stats.inMem = (flushInsert codec ok s d).1.insertBuf.length ∧
      (flushInsert codec ok s d).1.stats.diskPending =
        (flushInsert codec ok s d).2.1.rows.length ∧
      (flushInsert codec ok s d).1.stats.inFlight = s.stats.inFlight := by
  unfold flushInsert
  split
  · -- nothing to insert
    exact ⟨hmem, hdisk, rfl⟩
  · dsimp only
    split
    · -- Nothing could be serialised.
      rename_i hnone
      have hlen : (serializable codec s.insertBuf).length = 0 :=
        List.length_eq_zero_iff.mpr (List.isEmpty_iff.mp hnone)
      refine ⟨?_, hdisk, rfl⟩
      dsimp only
      rw [List.length_nil]
      omega
    · split
      · -- The rows are on disk; the buffer is empty.
        refine ⟨?_, ?_, rfl⟩
        · dsimp only
          rw [List.length_nil]
          omega
        · dsimp only
          rw [Disk.insert_rows, List.length_append, List.length_map, length_numberFrom]
          omega
      · -- The statement failed; only what cannot be serialised has left the buffer.
        refine ⟨?_, hdisk, rfl⟩
        dsimp only
        rw [List.length_map]
        omega

/-! ## Acknowledging -/

/-- An ack flush takes the rows it deletes off their count. -/
theorem flushAck_diskPending (oks : ℕ → Bool) {s : Spooler} {d : Disk P}
    (hdisk : s.stats.diskPending = d.rows.length) :
    (flushAck oks s d).1.stats.diskPending = (flushAck oks s d).2.rows.length := by
  have hcount := d.deleteChunks_count oks (ackChunks s.ackBuf)
  unfold flushAck
  split
  · -- nothing to acknowledge
    exact hdisk
  · change s.stats.diskPending - ((d.deleteChunks oks (ackChunks s.ackBuf)).2.2 : ℤ) =
      ((d.deleteChunks oks (ackChunks s.ackBuf)).1.rows.length : ℤ)
    rw [hdisk, ← hcount]
    omega

theorem flushAck_inMem (oks : ℕ → Bool) (s : Spooler) (d : Disk P) :
    (flushAck oks s d).1.stats.inMem = s.stats.inMem := by
  unfold flushAck
  split <;> rfl

theorem flushAck_inFlight (oks : ℕ → Bool) (s : Spooler) (d : Disk P) :
    (flushAck oks s d).1.stats.inFlight = s.stats.inFlight := by
  unfold flushAck
  split <;> rfl

theorem flushAck_insertBuf (oks : ℕ → Bool) (s : Spooler) (d : Disk P) :
    (flushAck oks s d).1.insertBuf = s.insertBuf := by
  unfold flushAck
  split <;> rfl

/-! ## What is on its way -/

namespace StoreSystem

/-- The messages handed to the writer whose acknowledgement the spooler has not taken. -/
def outstanding (t : StoreSystem P) : ℕ :=
  t.writerRx.length + t.writer.buffers.entries.length + t.ackRx.length

/-- How many acknowledgements this process has taken, after an event. -/
def ackedAfter (acked : ℕ) : StoreEvent → ℕ
  | .recvAck _ => acked + 1
  | .restart => 0
  | _ => acked

/-- The counters are exact, where the process has taken `acked` acknowledgements. -/
structure StatsExact (acked : ℕ) (t : StoreSystem P) : Prop where
  inMem : t.spooler.stats.inMem = t.spooler.insertBuf.length
  diskPending : t.spooler.stats.diskPending = t.disk.rows.length
  inFlight : t.spooler.stats.inFlight = t.outstanding
  balance : t.history.handed.length = t.outstanding + acked

namespace StatsExact

variable {acked : ℕ} {t : StoreSystem P}

theorem start (disk : Disk P) (pg : Database) (history : History P) :
    StatsExact 0 (StoreSystem.start disk pg history) := by
  have hnone : (StoreSystem.start disk pg history).outstanding = 0 := by
    simp [StoreSystem.start, outstanding]
  exact ⟨rfl, rfl, by rw [hnone]; rfl, by rw [hnone]; rfl⟩

theorem accept (h : StatsExact acked t) (msg : DbMessage) : StatsExact acked (t.accept msg) :=
  ⟨h.inMem, h.diskPending, h.inFlight, h.balance⟩

theorem bufferMsg (h : StatsExact acked t) (msg : DbMessage) (ingest : List DbMessage) :
    StatsExact acked (t.bufferMsg msg ingest) := by
  -- the counter goes up before any flush
  refine ⟨?_, h.diskPending, h.inFlight, h.balance⟩
  have hmem := h.inMem
  change t.spooler.stats.inMem + 1 = ((t.spooler.insertBuf ++ [msg]).length : ℤ)
  rw [List.length_append, List.length_singleton]
  omega

theorem pumpAt (h : StatsExact acked t) (pumping : Pumping) :
    StatsExact acked (t.pumpAt pumping) :=
  ⟨h.inMem, h.diskPending, h.inFlight, h.balance⟩

theorem insertFlushed (h : StatsExact acked t) (ok : Bool) :
    StatsExact acked (t.insertFlushed codec ok) := by
  obtain ⟨hmem, hdisk, hflight⟩ := flushInsert_counts codec ok h.inMem h.diskPending
  refine ⟨hmem, hdisk, ?_, h.balance⟩
  exact hflight.trans h.inFlight

theorem handOver (h : StatsExact acked t) (env : DbEnvelope) (rest : List DbEnvelope) :
    StatsExact acked (t.handOver env rest) := by
  have hflight := h.inFlight
  have hbalance := h.balance
  have hone : (t.handOver env rest).outstanding = t.outstanding + 1 := by
    change (t.writerRx ++ [env]).length + t.writer.buffers.entries.length + t.ackRx.length =
      t.writerRx.length + t.writer.buffers.entries.length + t.ackRx.length + 1
    rw [List.length_append, List.length_singleton]
    omega
  -- one message more is on its way
  refine ⟨h.inMem, h.diskPending, ?_, ?_⟩
  · rw [hone]
    change t.spooler.stats.inFlight + 1 = _
    omega
  · rw [hone]
    change (t.history.handed ++ [env]).length = _
    rw [List.length_append, List.length_singleton]
    omega

/-- A fetch deletes the rows that it cannot decode, and counts them. -/
theorem rowsFetched (h : StatsExact acked t) (fetchOk deleteOk : Bool) :
    StatsExact acked (t.rowsFetched codec fetchOk deleteOk) := by
  unfold StoreSystem.rowsFetched fetchRows
  dsimp only
  split
  · -- the query failed
    exact ⟨h.inMem, h.diskPending, h.inFlight, h.balance⟩
  · have hleft : ∀ ids, t.spooler.stats.diskPending - ((t.disk.deleteIds deleteOk ids).2 : ℤ) =
        ((t.disk.deleteIds deleteOk ids).1.rows.length : ℤ) := by
      intro ids
      have hdisk := h.diskPending
      have hcount := t.disk.deleteIds_count deleteOk ids
      omega
    exact ⟨h.inMem, hleft _, h.inFlight, h.balance⟩

theorem bufferAck (h : StatsExact acked t) {ackId : ℤ} {ackRx : List ℤ}
    (hrx : t.ackRx = ackId :: ackRx) : StatsExact (acked + 1) (t.bufferAck ackId ackRx) := by
  have hflight := h.inFlight
  have hbalance := h.balance
  -- the acknowledgement leaves the channel and with it the count
  have hone : t.outstanding = (t.bufferAck ackId ackRx).outstanding + 1 := by
    unfold outstanding
    rw [hrx]
    rfl
  refine ⟨h.inMem, h.diskPending, ?_, ?_⟩
  · change t.spooler.stats.inFlight - 1 = _
    omega
  · change t.history.handed.length = _
    omega

theorem acksFlushed (h : StatsExact acked t) (oks : ℕ → Bool) :
    StatsExact acked (t.acksFlushed oks) := by
  refine ⟨?_, flushAck_diskPending oks h.diskPending, ?_, h.balance⟩
  · have hmem := h.inMem
    rw [← flushAck_inMem oks t.spooler t.disk, ← flushAck_insertBuf oks t.spooler t.disk] at hmem
    exact hmem
  · exact (flushAck_inFlight oks t.spooler t.disk).trans h.inFlight

/-- What the writer takes over it acknowledges or keeps. -/
theorem wrote (h : StatsExact acked t) {writerRx : List DbEnvelope}
    {result : Writer × WriterOutput}
    (hlen : writerRx.length + result.2.acks.length + result.1.buffers.entries.length =
      t.writerRx.length + t.writer.buffers.entries.length) :
    StatsExact acked (t.wrote writerRx result) := by
  -- a message moves from the channel to the buffers or to the acknowledgements
  have hsame : (t.wrote writerRx result).outstanding = t.outstanding := by
    change writerRx.length + result.1.buffers.entries.length + (t.ackRx ++ result.2.acks).length =
      t.writerRx.length + t.writer.buffers.entries.length + t.ackRx.length
    rw [List.length_append]
    omega
  refine ⟨h.inMem, h.diskPending, ?_, ?_⟩
  · rw [hsame]
    exact h.inFlight
  · rw [hsame]
    exact h.balance

theorem received (h : StatsExact acked t) {env : DbEnvelope} {writerRx : List DbEnvelope}
    (hrx : t.writerRx = env :: writerRx) (faults : PgFaults) (nowMs : ℤ) :
    StatsExact acked (t.wrote writerRx (t.writer.receive cfg faults nowMs env)) := by
  apply h.wrote
  have hperm := (@Writer.receive_entries cfg faults nowMs t.writer env).length_eq
  rw [List.length_append, List.length_cons] at hperm
  rw [WriterOutput.acks, List.length_map, hrx, List.length_cons]
  omega

theorem ticked (h : StatsExact acked t) (faults : PgFaults) (nowMs : ℤ) :
    StatsExact acked (t.wrote t.writerRx (t.writer.tick cfg faults nowMs)) := by
  apply h.wrote
  have hsame := congrArg List.length (@Writer.tick_entries cfg faults nowMs t.writer)
  rw [List.length_append] at hsame
  rw [WriterOutput.acks, List.length_map]
  omega

theorem sendPending (h : StatsExact acked t) (afterwards : Pumping) :
    StatsExact acked (t.sendPending afterwards) := by
  unfold StoreSystem.sendPending
  split
  · -- nothing is left to hand over
    exact h.pumpAt afterwards
  · split
    · exact h.handOver _ _
    · -- the channel is full: the message goes back
      exact h.pumpAt .idle

/-- Every event keeps the counters exact, and only a taken acknowledgement counts as one. -/
theorem step (h : StatsExact acked t) {e : StoreEvent} {t' : StoreSystem P}
    (hstep : StoreSystem.step codec cfg t e = some t') : StatsExact (ackedAfter acked e) t' := by
  cases e with
  | send msg =>
    cases hstep
    exact h.accept msg
  | recvMsg insertOk =>
    have hrecv := whenIdle_eq_some hstep
    unfold recvMsg at hrecv
    split at hrecv
    · cases hrecv
    · rename_i msg ingest hingest
      have hbuffered := h.bufferMsg msg ingest
      cases hrecv
      -- the buffer has reached its size, so it is flushed at once
      split
      · exact hbuffered.insertFlushed insertOk
      · exact hbuffered
  | insertTick insertOk =>
    cases whenIdle_eq_some hstep
    exact h.insertFlushed insertOk
  | sendTick =>
    cases whenIdle_eq_some hstep
    exact h.pumpAt .leftovers
  | pump fetchOk deleteOk =>
    simp only [StoreSystem.step, pump] at hstep
    split at hstep
    · cases hstep
    · cases hstep
      exact h.sendPending .fetching
    · cases hstep
      exact h.rowsFetched fetchOk deleteOk
    · cases hstep
      exact h.sendPending .idle
  | recvAck oks =>
    have hrecv := whenIdle_eq_some hstep
    unfold recvAck at hrecv
    split at hrecv
    · cases hrecv
    · rename_i hacks
      have hbuffered := h.bufferAck hacks
      cases hrecv
      -- the same for the acknowledgements
      split
      · exact hbuffered.acksFlushed oks
      · exact hbuffered
  | ackTick oks =>
    cases whenIdle_eq_some hstep
    exact h.acksFlushed oks
  | writerRecv faults nowMs =>
    simp only [StoreSystem.step, writerRecv] at hstep
    split at hstep
    · cases hstep
    · rename_i hrx
      cases hstep
      exact h.received hrx faults nowMs
  | writerTick faults nowMs =>
    cases hstep
    exact h.ticked faults nowMs
  | restart =>
    cases hstep
    -- a new process counts the rows on disk, and has nothing on its way
    exact StatsExact.start _ _ _

end StatsExact

end StoreSystem

/-! ## Runs -/

/-- The acknowledgements that the spooler has taken since the last restart of a run. -/
def rowsAcked (events : List StoreEvent) : ℕ := events.foldl StoreSystem.ackedAfter 0

theorem statsExact_of_run {disk : Disk P} {pg : Database} {history : History P}
    {t : StoreSystem P} {events : List StoreEvent}
    (hrun : (storeMachine codec cfg).run (StoreSystem.start disk pg history) events = some t) :
    StoreSystem.StatsExact (rowsAcked events) t := by
  have hstart : StoreSystem.StatsExact (rowsAcked []) (StoreSystem.start disk pg history) :=
    StoreSystem.StatsExact.start disk pg history
  have hstep : ∀ (hist : List StoreEvent) (t : StoreSystem P) (e : StoreEvent)
      (t' : StoreSystem P), StoreSystem.StatsExact (rowsAcked hist) t → True →
        (storeMachine codec cfg).step t e = some t' →
          StoreSystem.StatsExact (rowsAcked (hist ++ [e])) t' := by
    intro hist t e t' h _ hstep
    unfold rowsAcked
    rw [List.foldl_append]
    exact h.step hstep
  -- The induction is on the run, with the events so far as its history.
  exact (storeMachine codec cfg).hist_of_runMeets hstep hstart
    ((storeMachine codec cfg).runMeets_trivial _ events) hrun

/-- After every sequence of steps, from any backlog, the counters say how many messages wait in
memory, how many rows are on disk, and how many rows were sent and not acknowledged; none is
negative. -/
theorem queue_stats_exact (codec : Codec P) (cfg : WriterConfig) (disk : Disk P) (pg : Database)
    (history : History P) {t : StoreSystem P} {events : List StoreEvent}
    (hrun : (storeMachine codec cfg).run (StoreSystem.start disk pg history) events = some t) :
    t.spooler.stats.inMem = t.spooler.insertBuf.length ∧
      t.spooler.stats.diskPending = t.disk.rows.length ∧
      t.spooler.stats.inFlight = t.history.handed.length - rowsAcked events ∧
      0 ≤ t.spooler.stats.inMem ∧ 0 ≤ t.spooler.stats.diskPending ∧
      0 ≤ t.spooler.stats.inFlight := by
  have hexact := statsExact_of_run hrun
  have hmem := hexact.inMem
  have hdisk := hexact.diskPending
  have hflight := hexact.inFlight
  have hbalance := hexact.balance
  -- every counter equals a length, so none is negative
  omega

def threeStore : StoreSystem DbMessage :=
  ((storeMachine plainCodec captureOff).run emptyStore threeRun).get (by decide +kernel)

/-- Two of three rows were acknowledged. -/
theorem queue_stats_exact_three :
    (threeStore.spooler.stats.inMem = threeStore.spooler.insertBuf.length ∧
      threeStore.spooler.stats.diskPending = threeStore.disk.rows.length ∧
      threeStore.spooler.stats.inFlight = threeStore.history.handed.length - rowsAcked threeRun ∧
      0 ≤ threeStore.spooler.stats.inMem ∧ 0 ≤ threeStore.spooler.stats.diskPending ∧
      0 ≤ threeStore.spooler.stats.inFlight) ∧
      threeStore.spooler.stats = ⟨0, 1, 1⟩ ∧ rowsAcked threeRun = 2 :=
  ⟨queue_stats_exact plainCodec captureOff ⟨[], 0⟩ Database.fresh ⟨[], [], [], [], [], []⟩
    (Option.some_get _).symm, by decide +kernel⟩

end AlphaMonitor.Store
