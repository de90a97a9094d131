import AlphaMonitor.Store.Delivery

/-!
# Rows are settled in their order

The writer takes the rows one after the other and commits all it has taken at once.  So
when a message is committed, those of all earlier rows are committed or skipped too, even
if processes stop and start in between.

## Main results

- `Swept`: what the spooler has passed is handed over, pending or settled
- `Drained`: what the writer has taken is in its buffers or settled
- `settled_of_committed`: a committed message leaves no earlier row behind
-/

namespace AlphaMonitor.Store

open StoreSystem (Move)

variable {P : Type*} {codec : Codec P} {cfg : WriterConfig}

/-! ## The spooler -/

/-- Rows up to the last one that was read cannot be decoded, or their messages are handed over,
pending or settled.  Rows are numbered from one on, and a process starts in front of them. -/
structure Swept (codec : Codec P) (t : StoreSystem P) : Prop where
  pos : ∀ row ∈ t.history.rows, 0 < row.id
  nonneg : 0 ≤ t.spooler.lastSentId
  last_le : t.spooler.lastSentId ≤ t.disk.sequence
  read : ∀ row ∈ t.history.rows, row.id ≤ t.spooler.lastSentId → codec.decode row.payload = none ∨
    ∃ env ∈ t.history.handed ++ t.spooler.pendingSend ++ t.history.settled, Reads codec row env

namespace Swept

theorem start {disk : Disk P} {pg : Database} {history : History P}
    (hpos : ∀ row ∈ history.rows, 0 < row.id) (hsequence : 0 ≤ disk.sequence) :
    Swept codec (StoreSystem.start disk pg history) where
  pos := hpos
  nonneg := le_refl 0
  last_le := hsequence
  -- no row was read, since ids start at one
  read row hrow hle := absurd (hpos row hrow) (not_lt.mpr hle)

theorem init {t : StoreSystem P} (h : t.Initial) : Swept codec t := by
  have hnumbered := h.numbered
  have hsequence := h.sequence_nonneg
  obtain ⟨disk, pg, rfl⟩ := h.started
  exact start (fun row hrow => (hnumbered row hrow).1) hsequence

/-- A change that hands over or settles more, and reads no more rows. -/
theorem of_subset {t u : StoreSystem P} (h : Swept codec t)
    (hrows : u.history.rows = t.history.rows)
    (hlast : u.spooler.lastSentId = t.spooler.lastSentId)
    (hsequence : u.disk.sequence = t.disk.sequence)
    (hsent : t.history.handed ++ t.spooler.pendingSend ++ t.history.settled ⊆
      u.history.handed ++ u.spooler.pendingSend ++ u.history.settled) : Swept codec u where
  pos := hrows ▸ h.pos
  nonneg := hlast ▸ h.nonneg
  last_le := by
    rw [hlast, hsequence]
    exact h.last_le
  read := by
    rw [hrows, hlast]
    intro row hrow hle
    refine (h.read row hrow hle).imp_right ?_
    rintro ⟨env, henv, hreads⟩
    exact ⟨env, hsent henv, hreads⟩

/-- Rows that are inserted are behind those that were read. -/
theorem insertFlushed {t : StoreSystem P} (h : Swept codec t) (ok : Bool) :
    Swept codec (t.insertFlushed codec ok) := by
  obtain ⟨insertBuf, stats, disk, inserted, heq, hinserted, -⟩ :=
    flushInsert_cases codec ok t.spooler t.disk
  unfold StoreSystem.insertFlushed
  rw [heq]
  have hnonneg := h.nonneg
  have hlast := h.last_le
  rcases hinserted with ⟨rfl, rfl⟩ | ⟨rfl, rfl⟩
  · -- the statement failed, or there was nothing to insert
    exact h.of_subset (List.append_nil _) rfl rfl (List.Subset.refl _)
  · have hbehind : ∀ row ∈ (numberFrom (t.disk.sequence + 1)
        (serializable codec t.spooler.insertBuf)).map
          (fun e => (⟨e.1, e.2.2⟩ : QueueRow P)), t.disk.sequence < row.id := by
      intro row hrow
      -- new rows are numbered from the sequence on
      obtain ⟨⟨id, msg, p⟩, hmem, rfl⟩ := List.mem_map.mp hrow
      have hbounds := bounds_of_mem_numberFrom hmem
      show t.disk.sequence < id
      omega
    constructor
    · intro row hrow
      rcases List.mem_append.mp hrow with hold | hnew
      · exact h.pos row hold
      · exact lt_of_le_of_lt (hnonneg.trans hlast) (hbehind row hnew)
    · exact hnonneg
    · show t.spooler.lastSentId ≤ t.disk.sequence + _
      omega
    · intro row hrow hle
      rcases List.mem_append.mp hrow with hold | hnew
      · exact h.read row hold hle
      · exact absurd (hlast.trans_lt (hbehind row hnew)) (not_lt.mpr hle)

/-- A row that a fetch passes is among those that it read, unless it is gone already. -/
theorem rowsFetched {t : StoreSystem P} (h : Swept codec t) (hnum : Numbered t)
    (haccounted : Accounted codec cfg t) (fetchOk deleteOk : Bool) :
    Swept codec (t.rowsFetched codec fetchOk deleteOk) := by
  unfold StoreSystem.rowsFetched
  obtain heq | ⟨rows, stats, htaken, heq⟩ := fetchRows_cases codec fetchOk deleteOk
    (dbWriterChannelCapacity - t.writerRx.length) t.spooler t.disk
  · -- the query failed
    rw [heq]
    exact h.of_subset rfl rfl rfl (List.Subset.refl _)
  · rw [heq]
    -- the fetched rows are on disk, so they were inserted
    have hfetched : ∀ row ∈ rows, row ∈ t.history.rows := fun row hrow =>
      hnum.onDisk.subset (List.mem_of_mem_filter (htaken.subset hrow))
    -- the last id moves to the last fetched row, if there is one
    have hlast : (rows.map QueueRow.id).getLastD t.spooler.lastSentId = t.spooler.lastSentId ∨
        ∃ row ∈ rows, row.id = (rows.map QueueRow.id).getLastD t.spooler.lastSentId := by
      rcases List.eq_nil_or_concat rows with rfl | ⟨rest, row, rfl⟩
      · exact .inl rfl
      · rw [List.concat_eq_append]
        refine .inr ⟨row, List.mem_append_right _ (List.mem_singleton.mpr rfl), ?_⟩
        rw [List.map_append, List.map_singleton, List.getLastD_concat]
    constructor
    · exact h.pos
    · dsimp only
      rcases hlast with hsame | ⟨row, hrow, hid⟩
      · rw [hsame]
        exact h.nonneg
      · rw [← hid]
        exact (h.pos row (hfetched row hrow)).le
    · dsimp only
      rw [Disk.deleteIds_sequence]
      rcases hlast with hsame | ⟨row, hrow, hid⟩
      · rw [hsame]
        exact h.last_le
      · rw [← hid]
        exact hnum.bound row (hfetched row hrow)
    · intro row hrow hle
      dsimp only at hle ⊢
      -- the row was passed before this fetch
      by_cases hbefore : row.id ≤ t.spooler.lastSentId
      · refine (h.read row hrow hbefore).imp_right ?_
        rintro ⟨env, henv, hreads⟩
        refine ⟨env, ?_, hreads⟩
        simp only [List.mem_append] at henv ⊢
        tauto
      · rcases haccounted.gone row hrow with hdisk | hnone | ⟨env, henv, hreads⟩
        · -- The row is on disk, between the old and the new last one.
          have hread : row ∈ rows := by
            have hfound : row ∈ t.disk.rows.filter fun row => t.spooler.lastSentId < row.id :=
              List.mem_filter.mpr ⟨hdisk, decide_eq_true (not_le.mp hbefore)⟩
            obtain ⟨rest, hsplit⟩ := htaken
            rw [← hsplit] at hfound
            rcases List.mem_append.mp hfound with hread | hrest
            · exact hread
            · -- it would be behind the last fetched row
              rcases hlast with hsame | ⟨last, hmem, hid⟩
              · exact absurd (hsame ▸ hle) hbefore
              · have hsorted : ((rows ++ rest).map QueueRow.id).Pairwise (· < ·) := by
                  rw [hsplit]
                  exact hnum.sorted.sublist ((List.filter_sublist.trans hnum.onDisk).map _)
                rw [List.map_append, List.pairwise_append] at hsorted
                have hbehind := hsorted.2.2 last.id (List.mem_map.mpr ⟨last, hmem, rfl⟩) row.id
                  (List.mem_map.mpr ⟨row, hrest, rfl⟩)
                exact absurd (hid ▸ hbehind) (not_lt.mpr hle)
          cases hdecode : codec.decode row.payload with
          | none => exact .inl rfl
          | some msg =>
            refine .inr ⟨⟨row.id, msg⟩, ?_, rfl, hdecode⟩
            have hmem : (⟨row.id, msg⟩ : DbEnvelope) ∈ decoded codec rows :=
              List.mem_filterMap.mpr ⟨row, hread, by rw [hdecode]; rfl⟩
            exact List.mem_append_left _ (List.mem_append_right _ (List.mem_append_right _ hmem))
        · -- the row was deleted because it cannot be decoded
          exact .inl hnone
        · -- the row was deleted because its message is settled
          exact .inr ⟨env, List.mem_append_right _ henv, hreads⟩

theorem move (t u : StoreSystem P) {cfg' : WriterConfig} (h : Swept codec t) (hnum : Numbered t)
    (haccounted : Accounted codec cfg t) (hmove : Move codec cfg' t u) : Swept codec u := by
  cases hmove with
  | inserted ok => exact h.insertFlushed ok
  | @handed _ env rest hpending =>
    -- from the front of what is pending to what is handed over
    refine h.of_subset rfl rfl rfl ?_
    rw [hpending]
    intro e he
    simp only [StoreSystem.handOver, List.mem_append, List.mem_cons] at he ⊢
    tauto
  | fetched fetchOk deleteOk => exact h.rowsFetched hnum haccounted fetchOk deleteOk
  | deleted oks =>
    obtain ⟨ackBuf, stats, disk, heq, -, -, hsequence, -⟩ := flushAck_cases oks t.spooler t.disk
    unfold StoreSystem.acksFlushed
    rw [heq]
    exact h.of_subset rfl rfl hsequence (List.Subset.refl _)
  | received | ticked =>
    -- more is settled than before
    refine h.of_subset rfl rfl rfl ?_
    intro e he
    simp only [StoreSystem.wrote, History.settled, List.mem_append] at he ⊢
    tauto
  -- the next process starts in front of the rows again
  | restarted => exact start h.pos (h.nonneg.trans h.last_le)
  | accepted | buffered | pumped | acked =>
    exact h.of_subset rfl rfl rfl (List.Subset.refl _)

end Swept

/-! ## The writer -/

/-- The writer took what was handed over from the front; what it has taken is in its buffers or
settled, and only that is in its buffers. -/
def Drained (t : StoreSystem P) : Prop :=
  ∃ taken, t.history.handed = taken ++ t.writerRx ∧
    (∀ env ∈ taken, env ∈ t.writer.buffers.entries ++ t.history.settled) ∧
    ∀ env ∈ t.writer.buffers.entries, env ∈ taken

theorem drained_start (disk : Disk P) (pg : Database) (history : History P) :
    Drained (StoreSystem.start disk pg history) := by
  refine ⟨[], rfl, fun env henv => absurd henv List.not_mem_nil, ?_⟩
  intro env henv
  have hempty : (StoreSystem.start disk pg history).writer.buffers.entries = [] :=
    WriterBuffers.entries_empty
  rw [hempty] at henv
  exact absurd henv List.not_mem_nil

/-- A step of the writer leaves what it had taken, and what it takes, in the buffers or settled. -/
theorem Drained.wrote {t : StoreSystem P} {taken now writerRx : List DbEnvelope}
    {result : Writer × WriterOutput} (hrx : t.writerRx = now ++ writerRx)
    (hperm : (result.2.skipped ++ result.2.committed ++ result.1.buffers.entries).Perm
      (now ++ t.writer.buffers.entries))
    (hhanded : t.history.handed = taken ++ t.writerRx)
    (htaken : ∀ env ∈ taken, env ∈ t.writer.buffers.entries ++ t.history.settled)
    (hbuf : ∀ env ∈ t.writer.buffers.entries, env ∈ taken) :
    (t.wrote writerRx result).history.handed = taken ++ now ++ writerRx ∧
      (∀ env ∈ taken ++ now, env ∈ (t.wrote writerRx result).writer.buffers.entries ++
        (t.wrote writerRx result).history.settled) ∧
      ∀ env ∈ (t.wrote writerRx result).writer.buffers.entries, env ∈ taken ++ now := by
  refine ⟨?_, ?_, ?_⟩
  · rw [List.append_assoc, ← hrx]
    exact hhanded
  · -- taken before or taken now
    intro env henv
    have hcases : env ∈ now ++ t.writer.buffers.entries ∨ env ∈ t.history.settled := by
      rcases List.mem_append.mp henv with hold | hnow
      · exact (List.mem_append.mp (htaken env hold)).imp_left (List.mem_append_right now)
      · exact .inl (List.mem_append_left _ hnow)
    rcases hcases with hmoved | hsettled
    · have hmem := hperm.symm.subset hmoved
      simp only [StoreSystem.wrote, History.settled, List.mem_append] at hmem ⊢
      tauto
    · simp only [StoreSystem.wrote, History.settled, List.mem_append] at hsettled ⊢
      tauto
  · intro env henv
    rcases List.mem_append.mp (hperm.subset (List.mem_append_right _ henv)) with hnow | hold
    · exact List.mem_append_right _ hnow
    · exact List.mem_append_left _ (hbuf env hold)

theorem Drained.move (t u : StoreSystem P) (h : Drained t) (hmove : Move codec cfg t u) :
    Drained u := by
  obtain ⟨taken, hhanded, htaken, hbuf⟩ := h
  cases hmove with
  | inserted ok =>
    obtain ⟨insertBuf, stats, disk, inserted, heq, -, -⟩ :=
      flushInsert_cases codec ok t.spooler t.disk
    unfold StoreSystem.insertFlushed
    rw [heq]
    -- an insert is no business of the writer
    exact ⟨taken, hhanded, htaken, hbuf⟩
  | @handed _ env rest hpending =>
    refine ⟨taken, ?_, htaken, hbuf⟩
    rw [StoreSystem.handOver, hhanded, List.append_assoc]
  | fetched fetchOk deleteOk =>
    unfold StoreSystem.rowsFetched
    obtain heq | ⟨rows, stats, -, heq⟩ := fetchRows_cases codec fetchOk deleteOk
      (dbWriterChannelCapacity - t.writerRx.length) t.spooler t.disk
    · rw [heq]
      exact ⟨taken, hhanded, htaken, hbuf⟩
    · rw [heq]
      exact ⟨taken, hhanded, htaken, hbuf⟩
  | deleted oks =>
    obtain ⟨ackBuf, stats, disk, heq, -⟩ := flushAck_cases oks t.spooler t.disk
    unfold StoreSystem.acksFlushed
    rw [heq]
    exact ⟨taken, hhanded, htaken, hbuf⟩
  | @received _ env writerRx hrx faults nowMs =>
    exact ⟨taken ++ [env], Drained.wrote hrx (t.writer.receive_entries env) hhanded htaken hbuf⟩
  | ticked faults nowMs =>
    -- a tick takes nothing from the channel
    refine ⟨taken ++ [], Drained.wrote (List.nil_append _).symm ?_ hhanded htaken hbuf⟩
    rw [Writer.tick_entries]
    exact List.Perm.refl _
  | restarted => exact drained_start _ _ _
  | accepted | buffered | pumped | acked => exact ⟨taken, hhanded, htaken, hbuf⟩

/-! ## Committed messages -/

/-- A flush that commits anything commits everything. -/
theorem Writer.flushBuffers_all (w : Writer) (faults : PgFaults) (nowMs : ℤ) :
    (w.flushBuffers cfg faults nowMs).2 = [] ∨
      (w.flushBuffers cfg faults nowMs).1.buffers.entries = [] := by
  obtain h | ⟨pg, -, h⟩ := w.flushBuffers_cases cfg faults nowMs
  · rw [h]
    exact .inl rfl
  · rw [h]
    exact .inr WriterBuffers.entries_empty

theorem Writer.receive_all (w : Writer) (env : DbEnvelope) (faults : PgFaults) (nowMs : ℤ) :
    (w.receive cfg faults nowMs env).2.committed = [] ∨
      (w.receive cfg faults nowMs env).1.buffers.entries = [] := by
  obtain h | h := w.receive_cases cfg faults nowMs env
  · rw [h]
    exact .inl rfl
  · rw [h]
    exact (w.stash cfg env).1.flushBuffers_all faults nowMs

/-- No row up to a committed message is still to be settled. -/
def Closed (codec : Codec P) (t : StoreSystem P) : Prop :=
  ∀ env ∈ t.history.committed, ∀ row ∈ t.history.rows, row.id ≤ env.id →
    codec.decode row.payload = none ∨ ∃ done ∈ t.history.settled, Reads codec row done

namespace Closed

theorem of_eq {t u : StoreSystem P} (h : Closed codec t)
    (hrows : u.history.rows = t.history.rows) (hskipped : u.history.skipped = t.history.skipped)
    (hcommitted : u.history.committed = t.history.committed) : Closed codec u := by
  unfold Closed History.settled
  rw [hrows, hskipped, hcommitted]
  exact h

/-- What a flush commits was taken in order, and with it everything that was taken before. -/
theorem wrote {t : StoreSystem P} {now writerRx : List DbEnvelope}
    {result : Writer × WriterOutput} (h : Closed codec t) (hsent : SentInOrder codec t)
    (hswept : Swept codec t) (hdrained : Drained t) (hrx : t.writerRx = now ++ writerRx)
    (hperm : (result.2.skipped ++ result.2.committed ++ result.1.buffers.entries).Perm
      (now ++ t.writer.buffers.entries))
    (hall : result.2.committed = [] ∨ result.1.buffers.entries = []) :
    Closed codec (t.wrote writerRx result) := by
  -- what is settled stays settled
  have hold : ∀ env ∈ t.history.settled, env ∈ (t.wrote writerRx result).history.settled := by
    intro env henv
    simp only [StoreSystem.wrote, History.settled, List.mem_append] at henv ⊢
    tauto
  intro env henv row hrow hle
  rcases List.mem_append.mp henv with hbefore | hnow
  · refine (h env hbefore row hrow hle).imp_right ?_
    rintro ⟨done, hdone, hreads⟩
    exact ⟨done, hold done hdone, hreads⟩
  · obtain ⟨taken, hhanded, htaken, hbuf⟩ := hdrained
    obtain ⟨hhanded', htaken', -⟩ := Drained.wrote hrx hperm hhanded htaken hbuf
    -- the flush left nothing in the buffers
    have hsettled : ∀ done ∈ taken ++ now, done ∈ (t.wrote writerRx result).history.settled := by
      intro done hdone
      rcases hall with hnone | hempty
      · rw [hnone] at hnow
        cases hnow
      · rcases List.mem_append.mp (htaken' done hdone) with hleft | hdone
        · have hleft' : done ∈ result.1.buffers.entries := hleft
          rw [hempty] at hleft'
          cases hleft'
        · exact hdone
    -- the committed message is one of those that were taken
    have hmem : env ∈ taken ++ now := by
      have hmoved := hperm.subset (List.mem_append_left _ (List.mem_append_right _ hnow))
      rcases List.mem_append.mp hmoved with hnew | hbuffered
      · exact List.mem_append_right _ hnew
      · exact List.mem_append_left _ (hbuf env hbuffered)
    have hsplit : t.history.handed ++ t.spooler.pendingSend =
        (taken ++ now) ++ (writerRx ++ t.spooler.pendingSend) := by
      rw [hhanded, hrx]
      simp only [List.append_assoc]
    -- its row was passed, and so were the rows before it
    have hbound : row.id ≤ t.spooler.lastSentId := by
      refine hle.trans (hsent.bound env ?_)
      rw [hsplit]
      exact List.mem_append_left _ hmem
    rcases hswept.read row hrow hbound with hnone | ⟨done, hdone, hreads⟩
    · exact .inl hnone
    · refine .inr ⟨done, ?_, hreads⟩
      rcases List.mem_append.mp hdone with hread | hdone
      · rw [hsplit] at hread
        rcases List.mem_append.mp hread with hearlier | hlater
        · exact hsettled done hearlier
        · -- what is still to be taken lies behind the committed message
          have hsorted := hsent.sorted
          rw [hsplit, List.map_append, List.pairwise_append] at hsorted
          have hbehind := hsorted.2.2 env.id (List.mem_map.mpr ⟨env, hmem, rfl⟩) done.id
            (List.mem_map.mpr ⟨done, hlater, rfl⟩)
          rw [← hreads.1] at hbehind
          exact absurd hbehind (not_lt.mpr hle)
      · exact hold done hdone

theorem move (t u : StoreSystem P) {cfg' : WriterConfig} (h : Closed codec t) (hnum : Numbered t)
    (hsent : SentInOrder codec t) (haccounted : Accounted codec cfg t) (hswept : Swept codec t)
    (hdrained : Drained t) (hmove : Move codec cfg' t u) : Closed codec u := by
  cases hmove with
  | inserted ok =>
    obtain ⟨insertBuf, stats, disk, inserted, heq, hinserted, -⟩ :=
      flushInsert_cases codec ok t.spooler t.disk
    unfold StoreSystem.insertFlushed
    rw [heq]
    intro env henv row hrow hle
    rcases List.mem_append.mp hrow with hold | hnew
    · exact h env henv row hold hle
    · -- A new row is behind that of the committed message.
      exfalso
      obtain ⟨row', hrow', hreads⟩ := haccounted.origin env
        (List.mem_append_right _ (List.mem_append_right _ henv))
      have hbound := hnum.bound row' hrow'
      rw [hreads.1] at hbound
      obtain ⟨⟨id, msg, p⟩, hmem, rfl⟩ := List.mem_map.mp hnew
      rcases hinserted with ⟨rfl, -⟩ | ⟨rfl, -⟩
      · cases hmem
      · have hnumber := bounds_of_mem_numberFrom hmem
        dsimp only at hle
        omega
  | fetched fetchOk deleteOk =>
    unfold StoreSystem.rowsFetched
    obtain heq | ⟨rows, stats, -, heq⟩ := fetchRows_cases codec fetchOk deleteOk
      (dbWriterChannelCapacity - t.writerRx.length) t.spooler t.disk
    · rw [heq]
      exact h.of_eq rfl rfl rfl
    · rw [heq]
      exact h.of_eq rfl rfl rfl
  | deleted oks =>
    obtain ⟨ackBuf, stats, disk, heq, -⟩ := flushAck_cases oks t.spooler t.disk
    unfold StoreSystem.acksFlushed
    rw [heq]
    exact h.of_eq rfl rfl rfl
  | @received _ env writerRx hrx faults nowMs =>
    have hsplit : t.writerRx = [env] ++ writerRx := hrx
    exact h.wrote hsent hswept hdrained hsplit (t.writer.receive_entries env)
      (t.writer.receive_all env faults nowMs)
  | ticked faults nowMs =>
    refine h.wrote hsent hswept hdrained (List.nil_append _).symm ?_ ?_
    · rw [Writer.tick_entries]
      exact List.Perm.refl _
    · exact t.writer.flushBuffers_all faults nowMs
  | accepted | buffered | pumped | handed | acked | restarted => exact h.of_eq rfl rfl rfl

end Closed

/-! ## All of it together -/

/-- What is known of rows and messages while processes come and go; `cfg` skips whatever one of
them skips. -/
structure InOrder (codec : Codec P) (cfg : WriterConfig) (t : StoreSystem P) : Prop where
  numbered : Numbered t
  sent : SentInOrder codec t
  accounted : Accounted codec cfg t
  swept : Swept codec t
  drained : Drained t
  closed : Closed codec t

namespace InOrder

theorem init {t : StoreSystem P} (h : t.Initial) : InOrder codec cfg t := by
  have hswept : Swept codec t := .init h
  have haccounted : Accounted codec cfg t := .init h
  have hnumbered := Numbered.init h
  obtain ⟨disk, pg, rfl⟩ := h.started
  exact ⟨hnumbered, .start _ _ _, haccounted, hswept, drained_start _ _ _,
    fun env henv => absurd henv List.not_mem_nil⟩

theorem move {cfg' : WriterConfig} (hskips : ∀ msg, cfg'.skips msg = true → cfg.skips msg = true)
    (t u : StoreSystem P) (h : InOrder codec cfg t) (hmove : Move codec cfg' t u) :
    InOrder codec cfg u where
  numbered := h.numbered.move t u hmove
  sent := h.sent.move t u h.numbered hmove
  accounted := h.accounted.move hskips t u h.numbered h.sent hmove
  swept := h.swept.move t u h.numbered h.accounted hmove
  drained := h.drained.move t u hmove
  closed := h.closed.move t u h.numbered h.sent h.accounted h.swept h.drained hmove

/-- A committed message leaves no earlier row behind. -/
theorem settled_of_committed {t : StoreSystem P} (h : InOrder codec cfg t) {env : DbEnvelope}
    (henv : env ∈ t.history.committed) {row : QueueRow P} (hrow : row ∈ t.history.rows)
    (hle : row.id ≤ env.id) {msg : DbMessage} (hdecode : codec.decode row.payload = some msg) :
    ⟨row.id, msg⟩ ∈ t.history.settled := by
  rcases h.closed env henv row hrow hle with hnone | ⟨⟨id, msg'⟩, hdone, hid, hreads⟩
  · rw [hdecode] at hnone
    cases hnone
  · rw [hdecode] at hreads
    cases hreads
    rw [hid]
    exact hdone

end InOrder

end AlphaMonitor.Store
