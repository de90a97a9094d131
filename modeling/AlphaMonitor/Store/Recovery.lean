import AlphaMonitor.Store.Delivery

/-!
# The insert buffer after an outage

While SQLite fails, the insert buffer grows, and every flush tries all of it in one statement.
A statement binds two values a message, so that above half of SQLite's limit no flush goes
through any more, whether SQLite works or not.  `flush_ack` deletes in chunks and has no such
limit.

## Main results

- `insert_backlog_flushed_iff`: which backlogs get to disk
- `backlog_stuck`: the others never do, until the process stops
-/

namespace AlphaMonitor.Store

variable {P : Type*} {codec : Codec P}

/-! ## What can be serialised -/

/-- The payloads of a batch, where every message has one. -/
theorem serializable_snd {batch : List DbMessage}
    (hencode : ∀ msg ∈ batch, (codec.encode msg).isSome) :
    ((serializable codec batch).map Prod.snd).map some = batch.map codec.encode := by
  induction batch with
  | nil => rfl
  | cons msg batch ih =>
    obtain ⟨payload, hpayload⟩ := Option.isSome_iff_exists.mp (hencode msg List.mem_cons_self)
    have hrest := ih fun m hm => hencode m (List.mem_cons_of_mem _ hm)
    rw [serializable, List.filterMap_cons, hpayload, List.map_cons, hpayload]
    exact congrArg (some payload :: ·) hrest

/-- What could be serialised once can be serialised again. -/
theorem serializable_serialized (batch : List DbMessage) :
    serializable codec ((serializable codec batch).map Prod.fst) = serializable codec batch := by
  induction batch with
  | nil => rfl
  | cons msg batch ih =>
    cases hpayload : codec.encode msg with
    | none =>
      -- a message without a payload was left out before
      have hskip : serializable codec (msg :: batch) = serializable codec batch := by
        simp [serializable, hpayload]
      rw [hskip]
      exact ih
    | some payload =>
      have hkeep : ∀ rest, serializable codec (msg :: rest) =
          (msg, payload) :: serializable codec rest := by
        intro rest
        simp [serializable, hpayload]
      rw [hkeep batch, List.map_cons, hkeep, ih]

theorem serializable_append (batch batch' : List DbMessage) :
    serializable codec (batch ++ batch') =
      serializable codec batch ++ serializable codec batch' :=
  List.filterMap_append

/-! ## Flushing again and again -/

/-- So many calls of `flush_insert` with nothing in between, each with a working SQLite. -/
def flushInserts (codec : Codec P) : ℕ → Spooler → Disk P → Spooler × Disk P
  | 0, s, d => (s, d)
  | n + 1, s, d =>
    flushInserts codec n (flushInsert codec true s d).1 (flushInsert codec true s d).2.1

/-- A statement that does not go through leaves in the buffer what could be serialised. -/
theorem flushInsert_of_failed {ok : Bool} {s : Spooler} (d : Disk P)
    (hno : ¬ (ok = true ∧ 2 * (serializable codec s.insertBuf).length ≤ sqliteMaxBinds)) :
    (flushInsert codec ok s d).1.insertBuf = (serializable codec s.insertBuf).map Prod.fst ∧
      (flushInsert codec ok s d).2 = (d, []) := by
  unfold flushInsert
  split
  · -- The buffer is empty.
    rename_i hempty
    rw [List.isEmpty_iff.mp hempty]
    exact ⟨rfl, rfl⟩
  · dsimp only
    split
    · -- Nothing can be serialised.
      rename_i hempty
      rw [List.isEmpty_iff.mp hempty]
      exact ⟨rfl, rfl⟩
    · exact ⟨rfl, rfl⟩

theorem not_fits_of_full (ok : Bool) {batch : List (DbMessage × P)}
    (hfull : sqliteMaxBinds < 2 * batch.length) :
    ¬ (ok = true ∧ 2 * batch.length ≤ sqliteMaxBinds) :=
  fun h => absurd hfull (not_lt.mpr h.2)

/-- However often it is tried, a buffer that is too long stays. -/
theorem flushInserts_of_full (n : ℕ) {s : Spooler} (d : Disk P)
    (hfull : sqliteMaxBinds < 2 * (serializable codec s.insertBuf).length) :
    (flushInserts codec n s d).1.insertBuf ≠ [] ∧ (flushInserts codec n s d).2 = d := by
  induction n generalizing s with
  | zero =>
    refine ⟨?_, rfl⟩
    intro hnil
    change s.insertBuf = [] at hnil
    rw [hnil] at hfull
    -- an empty buffer is not too long
    exact absurd hfull (Nat.not_lt_zero _)
  | succ n ih =>
    obtain ⟨hbuf, hdisk⟩ := flushInsert_of_failed d (not_fits_of_full true hfull)
    have hnext : sqliteMaxBinds <
        2 * (serializable codec (flushInsert codec true s d).1.insertBuf).length := by
      -- what stays in the buffer is as long as before
      rw [hbuf, serializable_serialized]
      exact hfull
    have hrest := ih hnext
    unfold flushInserts
    rw [hdisk]
    exact hrest

/-- A flush that does not bind too many values empties the buffer. -/
theorem flushInsert_of_room {s : Spooler} (d : Disk P)
    (hroom : 2 * (serializable codec s.insertBuf).length ≤ sqliteMaxBinds) :
    (flushInsert codec true s d).1.insertBuf = [] ∧
      (flushInsert codec true s d).2.1 =
        d.insert ((serializable codec s.insertBuf).map Prod.snd) := by
  -- inserting no rows leaves the disk alone
  have hnone : d.insert [] = d := by
    simp [Disk.insert, numberFrom]
  unfold flushInsert
  split
  · rename_i hempty
    rw [List.isEmpty_iff.mp hempty]
    exact ⟨rfl, hnone.symm⟩
  · dsimp only
    split
    · rename_i hempty
      rw [List.isEmpty_iff.mp hempty]
      exact ⟨rfl, hnone.symm⟩
    · rw [if_pos ⟨rfl, hroom⟩]
      exact ⟨rfl, rfl⟩

/-- Some number of flushes moves all the buffered messages to disk, in their order and once each,
exactly when there are no more of them than one statement takes. -/
theorem insert_backlog_flushed_iff (codec : Codec P) (s : Spooler) (d : Disk P) :
    (∃ n payloads, payloads.map some = s.insertBuf.map codec.encode ∧
        (flushInserts codec n s d).1.insertBuf = [] ∧
        (flushInserts codec n s d).2 = d.insert payloads) ↔
      (∀ msg ∈ s.insertBuf, (codec.encode msg).isSome) ∧
        2 * s.insertBuf.length ≤ sqliteMaxBinds := by
  -- every message has a payload, so the counts agree
  have hlength : ∀ h : ∀ msg ∈ s.insertBuf, (codec.encode msg).isSome,
      (serializable codec s.insertBuf).length = s.insertBuf.length := by
    intro h
    have hmap := congrArg List.length (serializable_snd h)
    rw [List.length_map, List.length_map, List.length_map] at hmap
    exact hmap
  constructor
  · rintro ⟨n, payloads, hpayloads, hempty, -⟩
    have hencode : ∀ msg ∈ s.insertBuf, (codec.encode msg).isSome := by
      intro msg hmsg
      -- each payload that is written is the encoding of its message
      have hmem : codec.encode msg ∈ payloads.map some := by
        rw [hpayloads]
        exact List.mem_map_of_mem hmsg
      obtain ⟨payload, -, hpayload⟩ := List.mem_map.mp hmem
      rw [← hpayload]
      rfl
    refine ⟨hencode, ?_⟩
    by_contra hlong
    rw [← hlength hencode] at hlong
    -- the buffer is too long for every one of the flushes
    exact (flushInserts_of_full n d (not_le.mp hlong)).1 hempty
  · rintro ⟨hencode, hroom⟩
    rw [← hlength hencode] at hroom
    obtain ⟨hbuf, hdisk⟩ := @flushInsert_of_room P codec s d hroom
    exact ⟨1, (serializable codec s.insertBuf).map Prod.snd, serializable_snd hencode, hbuf, hdisk⟩

/-! ## Runs of the queue -/

namespace StoreSystem

variable {cfg : WriterConfig}

/-- The insert buffer holds more than one statement takes, after `persisted` was inserted. -/
structure Stuck (codec : Codec P) (persisted : List (ℤ × DbMessage)) (t : StoreSystem P) :
    Prop where
  full : sqliteMaxBinds < 2 * (serializable codec t.spooler.insertBuf).length
  persisted : t.history.persisted = persisted

namespace Stuck

variable {persisted : List (ℤ × DbMessage)} {t : StoreSystem P}

theorem of_eq (h : Stuck codec persisted t) {u : StoreSystem P}
    (hbuf : u.spooler.insertBuf = t.spooler.insertBuf)
    (hpersisted : u.history.persisted = t.history.persisted) : Stuck codec persisted u := by
  refine ⟨?_, hpersisted.trans h.persisted⟩
  rw [hbuf]
  exact h.full

theorem bufferMsg (h : Stuck codec persisted t) (msg : DbMessage) (ingest : List DbMessage) :
    Stuck codec persisted (t.bufferMsg msg ingest) := by
  refine ⟨?_, h.persisted⟩
  change sqliteMaxBinds < 2 * (serializable codec (t.spooler.insertBuf ++ [msg])).length
  have hfull := h.full
  -- one more message, no fewer that can be serialised
  rw [serializable_append, List.length_append]
  omega

theorem insertFlushed (h : Stuck codec persisted t) (ok : Bool) :
    Stuck codec persisted (t.insertFlushed codec ok) := by
  obtain ⟨hbuf, hdisk⟩ := flushInsert_of_failed t.disk (not_fits_of_full ok h.full)
  constructor
  · change sqliteMaxBinds < 2 * (serializable codec
      (flushInsert codec ok t.spooler t.disk).1.insertBuf).length
    rw [hbuf, serializable_serialized]
    exact h.full
  · -- the statement failed, so nothing was persisted
    change t.history.persisted ++ List.map _ (flushInsert codec ok t.spooler t.disk).2.2 = persisted
    rw [hdisk, List.map_nil, List.append_nil]
    exact h.persisted

/-- No move but a restart gets the queue out of it. -/
theorem move (t u : StoreSystem P) (h : Stuck codec persisted t)
    (hmove : InnerMove codec cfg t u) : Stuck codec persisted u := by
  cases hmove with
  | buffered => exact h.bufferMsg _ _
  | inserted ok => exact h.insertFlushed ok
  | fetched fetchOk deleteOk =>
    refine h.of_eq ?_ rfl
    simp only [StoreSystem.rowsFetched, fetchRows]
    split <;> rfl
  | deleted oks =>
    obtain ⟨ackBuf, stats, disk, heq, -⟩ := flushAck_cases oks t.spooler t.disk
    unfold StoreSystem.acksFlushed
    rw [heq]
    exact h.of_eq rfl rfl
  | pumped | handed | acked | received | ticked => exact h.of_eq rfl rfl

theorem step (h : Stuck codec persisted t) {e : StoreEvent} {t' : StoreSystem P}
    (he : e ≠ .restart) (hstep : StoreSystem.step codec cfg t e = some t') :
    Stuck codec persisted t' := by
  by_cases hinner : e.inner = true
  · -- all steps but two are made of moves
    exact inner_step_inv (Stuck codec persisted) Stuck.move hinner h hstep
  · cases e with
    | send msg =>
      cases hstep
      exact h.of_eq rfl rfl
    | restart => exact absurd rfl he
    | recvMsg | insertTick | sendTick | pump | recvAck | ackTick | writerRecv | writerTick =>
      exact absurd rfl hinner

end Stuck

end StoreSystem

/-- Until the process stops, a queue whose backlog is too long inserts nothing, though SQLite
may work and whatever else is sent to it. -/
theorem backlog_stuck {cfg : WriterConfig} {t t' : StoreSystem P} {events : List StoreEvent}
    (hfull : sqliteMaxBinds < 2 * (serializable codec t.spooler.insertBuf).length)
    (hrunning : ∀ e ∈ events, e ≠ .restart)
    (hrun : (storeMachine codec cfg).run t events = some t') :
    t'.history.persisted = t.history.persisted := by
  have hstuck := (storeMachine codec cfg).inv_of_runMeets
    (StoreSystem.Stuck codec t.history.persisted)
    (fun _ _ _ h he hs => StoreSystem.Stuck.step h he hs) ⟨hfull, rfl⟩
    ((storeMachine codec cfg).runMeets_of_forall (fun e he _ => hrunning e he) t) hrun
  exact hstuck.persisted

/-! ### An outage -/

/-- While SQLite fails, so many messages are sent and taken over. -/
def outage (msg : DbMessage) (count : ℕ) : List StoreEvent :=
  (List.replicate count [.send msg, .recvMsg false]).flatten

/-- So many messages wait in the insert buffer, none on disk. -/
structure Waiting (msg : DbMessage) (count : ℕ) (t : StoreSystem DbMessage) : Prop where
  ingest : t.ingest = []
  idle : t.spooler.pumping = .idle
  insertBuf : t.spooler.insertBuf = List.replicate count msg
  disk : t.disk = ⟨[], 0⟩

/-- An insert that fails leaves the messages where they are. -/
theorem Waiting.insertFlushed {msg : DbMessage} {count : ℕ} {t : StoreSystem DbMessage}
    (h : Waiting msg count t) : Waiting msg count (t.insertFlushed plainCodec false) := by
  have hno : ¬ (false = true ∧ 2 * (serializable plainCodec t.spooler.insertBuf).length ≤
      sqliteMaxBinds) := fun h => Bool.noConfusion h.1
  obtain ⟨hbuf, hdisk⟩ := flushInsert_of_failed t.disk hno
  obtain ⟨insertBuf, stats, disk, inserted, heq, -⟩ :=
    flushInsert_cases plainCodec false t.spooler t.disk
  constructor
  · exact h.ingest
  · change (flushInsert plainCodec false t.spooler t.disk).1.pumping = .idle
    rw [heq]
    exact h.idle
  · change (flushInsert plainCodec false t.spooler t.disk).1.insertBuf = _
    rw [hbuf, serializable_fst fun _ => rfl]
    exact h.insertBuf
  · change (flushInsert plainCodec false t.spooler t.disk).2.1 = _
    rw [hdisk]
    exact h.disk

theorem Waiting.bufferMsg {msg : DbMessage} {count : ℕ} {t : StoreSystem DbMessage}
    (h : Waiting msg count t) : Waiting msg (count + 1) ((t.accept msg).bufferMsg msg []) := by
  refine ⟨rfl, h.idle, ?_, h.disk⟩
  change t.spooler.insertBuf ++ [msg] = List.replicate (count + 1) msg
  rw [h.insertBuf, List.replicate_succ']

theorem outage_waiting (cfg : WriterConfig) (msg : DbMessage) (count : ℕ) :
    ∃ t, (storeMachine plainCodec cfg).run emptyStore (outage msg count) = some t ∧
      Waiting msg count t := by
  induction count with
  | zero => exact ⟨emptyStore, rfl, rfl, rfl, rfl, rfl⟩
  | succ count ih =>
    obtain ⟨t, hrun, hwaiting⟩ := ih
    have hbuffered := hwaiting.bufferMsg
    have hlast : outage msg (count + 1) = outage msg count ++ [.send msg, .recvMsg false] := by
      -- one more message is sent and taken over
      unfold outage
      rw [List.replicate_succ', List.flatten_append, List.flatten_singleton]
    have hsent : (storeMachine plainCodec cfg).run t [.send msg, .recvMsg false] =
        (t.accept msg).recvMsg plainCodec false := by
      have hidle : (t.accept msg).spooler.pumping = .idle := hwaiting.idle
      simp [storeMachine, StoreSystem.step, StoreSystem.whenIdle, hidle]
    have hrecv : (t.accept msg).recvMsg plainCodec false =
        some (if dbQueueInsertBatch ≤ ((t.accept msg).bufferMsg msg []).spooler.insertBuf.length
          then ((t.accept msg).bufferMsg msg []).insertFlushed plainCodec false
          else (t.accept msg).bufferMsg msg []) := by
      have hingest : (t.accept msg).ingest = [msg] := by
        change t.ingest ++ [msg] = [msg]
        rw [hwaiting.ingest, List.nil_append]
      unfold StoreSystem.recvMsg
      rw [hingest]
    rw [hlast, Lib.Machine.run_append, hrun, Option.bind_some, hsent, hrecv]
    refine ⟨_, rfl, ?_⟩
    -- the buffer may be due for a flush, which fails
    split
    · exact hbuffered.insertFlushed
    · exact hbuffered

/-- After 16384 messages in an outage no number of flushes gets them to disk. -/
theorem backlog_of_outage_lost :
    ∃ t, (storeMachine plainCodec captureOff).run emptyStore (outage skippedEvent 16384) = some t ∧
      t.spooler.insertBuf = List.replicate 16384 skippedEvent ∧
      ¬ ∃ n payloads, payloads.map some = t.spooler.insertBuf.map plainCodec.encode ∧
        (flushInserts plainCodec n t.spooler t.disk).1.insertBuf = [] ∧
        (flushInserts plainCodec n t.spooler t.disk).2 = t.disk.insert payloads := by
  obtain ⟨t, hrun, hwaiting⟩ := outage_waiting captureOff skippedEvent 16384
  refine ⟨t, hrun, hwaiting.insertBuf, ?_⟩
  have hfull : sqliteMaxBinds < 2 * (serializable plainCodec t.spooler.insertBuf).length := by
    rw [hwaiting.insertBuf, ← List.length_map Prod.fst, serializable_fst fun _ => rfl,
      List.length_replicate]
    decide
  rintro ⟨n, payloads, -, hempty, -⟩
  exact (flushInserts_of_full n t.disk hfull).1 hempty

end AlphaMonitor.Store
