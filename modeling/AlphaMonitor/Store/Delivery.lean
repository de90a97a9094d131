import AlphaMonitor.Store.Queue

/-!
# Delivery through the disk queue

Rows are handed to the writer in the order of their ids and each at most once in a run
of the process.  A row stays on disk until the transaction with its message was
committed, unless the writer skips the message or the row cannot be decoded.

## Main results

- `Numbered`: every row has an id of its own
- `SentInOrder`: what is handed over comes in the order of the ids
- `Accounted`: where every row and every acknowledgement comes from
- `Retained`: the messages of a run are on disk or wait in memory, in order
-/

namespace AlphaMonitor.Store

open StoreSystem (Move)

variable {P : Type*} {codec : Codec P} {cfg : WriterConfig}

/-! ## Numbering -/

section NumberFrom

variable {α : Type*}

theorem length_numberFrom (n : ℤ) (xs : List α) : (numberFrom n xs).length = xs.length := by
  induction xs generalizing n with
  | nil => rfl
  | cons x xs ih => rw [numberFrom, List.length_cons, ih, List.length_cons]

theorem map_snd_numberFrom (n : ℤ) (xs : List α) : (numberFrom n xs).map Prod.snd = xs := by
  induction xs generalizing n with
  | nil => rfl
  | cons x xs ih => rw [numberFrom, List.map_cons, ih]

theorem numberFrom_map {β : Type*} (f : α → β) (n : ℤ) (xs : List α) :
    numberFrom n (xs.map f) = (numberFrom n xs).map (Prod.map id f) := by
  induction xs generalizing n with
  | nil => rfl
  | cons x xs ih =>
    rw [List.map_cons, numberFrom, numberFrom, ih]
    rfl

theorem bounds_of_mem_numberFrom {n i : ℤ} {x : α} {xs : List α} (h : (i, x) ∈ numberFrom n xs) :
    n ≤ i ∧ i < n + xs.length := by
  induction xs generalizing n with
  | nil => cases h
  | cons y ys ih =>
    rw [List.length_cons]
    rcases List.mem_cons.mp h with heq | hmem
    · obtain ⟨rfl, -⟩ := Prod.mk.inj heq
      omega
    · have hys := ih hmem
      omega

theorem pairwise_numberFrom (n : ℤ) (xs : List α) :
    ((numberFrom n xs).map Prod.fst).Pairwise (· < ·) := by
  induction xs generalizing n with
  | nil => exact List.Pairwise.nil
  | cons x xs ih =>
    rw [numberFrom, List.map_cons]
    refine List.pairwise_cons.mpr ⟨fun i hi => ?_, ih (n + 1)⟩
    obtain ⟨⟨j, y⟩, hmem, rfl⟩ := List.mem_map.mp hi
    have hbounds := bounds_of_mem_numberFrom hmem
    change n < j
    omega

end NumberFrom

/-! ## Deleting -/

namespace Disk

variable (d : Disk P)

theorem deleteIds_sublist (ok : Bool) (ids : List ℤ) :
    (d.deleteIds ok ids).1.rows.Sublist d.rows := by
  unfold deleteIds
  split
  · exact List.Sublist.refl _
  · split
    · exact List.filter_sublist
    · exact List.Sublist.refl _

theorem deleteIds_sequence (ok : Bool) (ids : List ℤ) :
    (d.deleteIds ok ids).1.sequence = d.sequence := by
  unfold deleteIds
  split
  · rfl
  · split <;> rfl

/-- Only the named rows are deleted. -/
theorem mem_deleteIds {ok : Bool} {ids : List ℤ} {row : QueueRow P} (h : row ∈ d.rows)
    (hid : row.id ∉ ids) : row ∈ (d.deleteIds ok ids).1.rows := by
  unfold deleteIds
  split
  · exact h
  · split
    · exact List.mem_filter.mpr ⟨h, decide_eq_true hid⟩
    · exact h

variable {d}

theorem deleteChunks_sublist (oks : ℕ → Bool) (chunks : List (List ℤ)) :
    (d.deleteChunks oks chunks).1.rows.Sublist d.rows := by
  induction chunks generalizing oks d with
  | nil => exact List.Sublist.refl _
  | cons chunk rest ih => exact (ih _).trans (d.deleteIds_sublist (oks 0) chunk)

theorem deleteChunks_sequence (oks : ℕ → Bool) (chunks : List (List ℤ)) :
    (d.deleteChunks oks chunks).1.sequence = d.sequence := by
  induction chunks generalizing oks d with
  | nil => rfl
  | cons chunk rest ih => exact (ih _).trans (d.deleteIds_sequence (oks 0) chunk)

theorem mem_deleteChunks {oks : ℕ → Bool} {chunks : List (List ℤ)} {row : QueueRow P}
    (h : row ∈ d.rows) (hid : row.id ∉ chunks.flatten) :
    row ∈ (d.deleteChunks oks chunks).1.rows := by
  induction chunks generalizing oks d with
  | nil => exact h
  | cons chunk rest ih =>
    rw [List.flatten_cons, List.mem_append, not_or] at hid
    exact ih (d.mem_deleteIds h hid.1) hid.2

theorem mem_deleteChunks_remaining {oks : ℕ → Bool} {chunks : List (List ℤ)} {id : ℤ}
    (h : id ∈ (d.deleteChunks oks chunks).2.1) : id ∈ chunks.flatten := by
  induction chunks generalizing oks d with
  | nil => exact h
  | cons chunk rest ih =>
    rw [List.flatten_cons, List.mem_append]
    change id ∈ (if (d.deleteIds (oks 0) chunk).2 = 0 then chunk else []) ++
      ((d.deleteIds (oks 0) chunk).1.deleteChunks (fun i => oks (i + 1)) rest).2.1 at h
    rcases List.mem_append.mp h with hchunk | hrest
    · by_cases hzero : (d.deleteIds (oks 0) chunk).2 = 0
      · rw [if_pos hzero] at hchunk
        exact .inl hchunk
      · rw [if_neg hzero] at hchunk
        cases hchunk
    · exact .inr (ih hrest)

end Disk

/-- `flush_ack` names acknowledged ids only. -/
theorem mem_ackChunks {ackBuf : List ℤ} {id : ℤ} (h : id ∈ (ackChunks ackBuf).flatten) :
    id ∈ ackBuf := by
  rw [ackChunks, Lib.flatten_toChunks] at h
  have hsorted := (List.destutter_sublist (· ≠ ·) (ackBuf.insertionSort (· ≤ ·))).subset h
  exact (List.perm_insertionSort (· ≤ ·) ackBuf).subset hsorted

/-! ## What an operation does -/

/-- An insert flush touches the insert buffer and the counters only, or inserts a row for every
message that can be serialised. -/
theorem flushInsert_cases (codec : Codec P) (ok : Bool) (s : Spooler) (d : Disk P) :
    ∃ insertBuf stats disk inserted,
      flushInsert codec ok s d = ({ s with insertBuf := insertBuf, stats := stats }, disk, inserted) ∧
      (inserted = [] ∧ disk = d ∨
        inserted = numberFrom (d.sequence + 1) (serializable codec s.insertBuf) ∧
          disk = d.insert ((serializable codec s.insertBuf).map Prod.snd)) ∧
      inserted.map (fun (_, msg, _) => msg) ++ insertBuf =
        (serializable codec s.insertBuf).map Prod.fst := by
  unfold flushInsert
  split
  · rename_i hempty
    refine ⟨s.insertBuf, s.stats, d, [], rfl, .inl ⟨rfl, rfl⟩, ?_⟩
    rw [List.isEmpty_iff.mp hempty]
    rfl
  · dsimp only
    split
    · rename_i hempty
      refine ⟨[], _, d, [], rfl, .inl ⟨rfl, rfl⟩, ?_⟩
      rw [List.isEmpty_iff.mp hempty]
      rfl
    · split
      · refine ⟨[], _, _, _, rfl, .inr ⟨rfl, rfl⟩, ?_⟩
        rw [List.append_nil]
        calc (numberFrom (d.sequence + 1) (serializable codec s.insertBuf)).map
              (fun (_, msg, _) => msg)
            = ((numberFrom (d.sequence + 1) (serializable codec s.insertBuf)).map
                Prod.snd).map Prod.fst := by
              rw [List.map_map]
              rfl
          _ = (serializable codec s.insertBuf).map Prod.fst := by rw [map_snd_numberFrom]
      · exact ⟨_, _, d, [], rfl, .inl ⟨rfl, rfl⟩, rfl⟩

/-- The rows that an insert adds. -/
theorem Disk.insert_rows (d : Disk P) (batch : List (DbMessage × P)) :
    (d.insert (batch.map Prod.snd)).rows =
      d.rows ++ (numberFrom (d.sequence + 1) batch).map fun (id, _, p) => ⟨id, p⟩ := by
  rw [Disk.insert, numberFrom_map, List.map_map]
  rfl

/-- A fetch reads rows behind the last one sent, in their order, and moves there. -/
theorem fetchRows_cases (codec : Codec P) (fetchOk deleteOk : Bool) (capacity : ℕ) (s : Spooler)
    (d : Disk P) :
    fetchRows codec fetchOk deleteOk capacity s d = ({ s with pumping := .idle }, d) ∨
      ∃ rows stats, rows <+: d.rows.filter (fun row => s.lastSentId < row.id) ∧
        fetchRows codec fetchOk deleteOk capacity s d =
          ({ s with
              pendingSend := s.pendingSend ++ decoded codec rows
              lastSentId := (rows.map QueueRow.id).getLastD s.lastSentId
              stats := stats
              pumping := .fetched },
            (d.deleteIds deleteOk (badIds codec rows)).1) := by
  unfold fetchRows
  dsimp only
  split
  · exact .inl rfl
  · exact .inr ⟨_, _, List.take_prefix _ _, rfl⟩

/-- An acknowledgement flush deletes acknowledged rows only, and keeps no other id. -/
theorem flushAck_cases (oks : ℕ → Bool) (s : Spooler) (d : Disk P) :
    ∃ ackBuf stats disk,
      flushAck oks s d = ({ s with ackBuf := ackBuf, stats := stats }, disk) ∧
      ackBuf ⊆ s.ackBuf ∧ disk.rows.Sublist d.rows ∧ disk.sequence = d.sequence ∧
      ∀ row ∈ d.rows, row.id ∉ s.ackBuf → row ∈ disk.rows := by
  unfold flushAck
  split
  · exact ⟨_, _, d, rfl, List.Subset.refl _, List.Sublist.refl _, rfl, fun _ h _ => h⟩
  · refine ⟨_, _, _, rfl, ?_, d.deleteChunks_sublist oks _, d.deleteChunks_sequence oks _, ?_⟩
    · exact fun id h => mem_ackChunks (Disk.mem_deleteChunks_remaining h)
    · exact fun row hrow hid => Disk.mem_deleteChunks hrow fun h => hid (mem_ackChunks h)

/-! ## Rows -/

/-- Every row has an id of its own, greater than those of the rows before it, and what is on disk
are such rows. -/
structure Numbered (t : StoreSystem P) : Prop where
  sorted : (t.history.rows.map QueueRow.id).Pairwise (· < ·)
  bound : ∀ row ∈ t.history.rows, row.id ≤ t.disk.sequence
  onDisk : t.disk.rows.Sublist t.history.rows

namespace Numbered

theorem row_eq {t : StoreSystem P} (h : Numbered t) {row row' : QueueRow P}
    (hrow : row ∈ t.history.rows) (hrow' : row' ∈ t.history.rows) (hid : row.id = row'.id) :
    row = row' :=
  List.inj_on_of_nodup_map (h.sorted.imp ne_of_lt) hrow hrow' hid

theorem init {t : StoreSystem P} (h : t.Initial) : Numbered t := by
  have hsorted := h.sorted
  have hnumbered := h.numbered
  obtain ⟨disk, pg, rfl⟩ := h.started
  exact ⟨hsorted, fun row hrow => (hnumbered row hrow).2, List.Sublist.refl _⟩

/-- Fewer rows on disk, and none added. -/
theorem of_sublist {t u : StoreSystem P} (h : Numbered t)
    (hrows : u.history.rows = t.history.rows) (hsequence : u.disk.sequence = t.disk.sequence)
    (hdisk : u.disk.rows.Sublist t.disk.rows) : Numbered u where
  sorted := hrows ▸ h.sorted
  bound row hrow := hsequence ▸ h.bound row (hrows ▸ hrow)
  onDisk := hrows ▸ hdisk.trans h.onDisk

theorem insertFlushed {t : StoreSystem P} (h : Numbered t) (ok : Bool) :
    Numbered (t.insertFlushed codec ok) := by
  obtain ⟨insertBuf, stats, disk, inserted, heq, hinserted, -⟩ :=
    flushInsert_cases codec ok t.spooler t.disk
  unfold StoreSystem.insertFlushed
  rw [heq]
  rcases hinserted with ⟨rfl, rfl⟩ | ⟨rfl, rfl⟩
  · exact h.of_sublist (List.append_nil _) rfl (List.Sublist.refl _)
  · have hids : ∀ row ∈ (numberFrom (t.disk.sequence + 1)
        (serializable codec t.spooler.insertBuf)).map (fun (id, _, p) => (⟨id, p⟩ : QueueRow P)),
        t.disk.sequence < row.id ∧
          row.id ≤ t.disk.sequence + (serializable codec t.spooler.insertBuf).length := by
      intro row hrow
      obtain ⟨⟨id, msg, p⟩, hmem, rfl⟩ := List.mem_map.mp hrow
      have hbounds := bounds_of_mem_numberFrom hmem
      change t.disk.sequence < id ∧ id ≤ _
      omega
    constructor
    · rw [List.map_append, List.pairwise_append]
      refine ⟨h.sorted, ?_, ?_⟩
      · rw [List.map_map]
        exact pairwise_numberFrom _ _
      · intro i hi j hj
        obtain ⟨row, hrow, rfl⟩ := List.mem_map.mp hi
        obtain ⟨row', hrow', rfl⟩ := List.mem_map.mp hj
        exact lt_of_le_of_lt (h.bound row hrow) (hids row' hrow').1
    · intro row hrow
      change row.id ≤ t.disk.sequence + _
      rw [List.length_map]
      rcases List.mem_append.mp hrow with hold | hnew
      · have hbound := h.bound row hold
        omega
      · exact (hids row hnew).2
    · rw [Disk.insert_rows]
      exact h.onDisk.append (List.Sublist.refl _)

theorem move (t u : StoreSystem P) (h : Numbered t) (hmove : Move codec cfg t u) :
    Numbered u := by
  cases hmove with
  | inserted ok => exact h.insertFlushed ok
  | fetched fetchOk deleteOk =>
    unfold StoreSystem.rowsFetched
    obtain heq | ⟨rows, stats, -, heq⟩ := fetchRows_cases codec fetchOk deleteOk
      (dbWriterChannelCapacity - t.writerRx.length) t.spooler t.disk
    · rw [heq]
      exact h.of_sublist rfl rfl (List.Sublist.refl _)
    · rw [heq]
      exact h.of_sublist rfl (t.disk.deleteIds_sequence _ _) (t.disk.deleteIds_sublist _ _)
  | deleted oks =>
    obtain ⟨ackBuf, stats, disk, heq, -, hsublist, hsequence, -⟩ :=
      flushAck_cases oks t.spooler t.disk
    unfold StoreSystem.acksFlushed
    rw [heq]
    exact h.of_sublist rfl hsequence hsublist
  | accepted | buffered | pumped | handed | acked | received | ticked | restarted =>
    exact h.of_sublist rfl rfl (List.Sublist.refl _)

end Numbered

/-! ## The order of delivery -/

/-- The message is what a row holds. -/
def Reads (codec : Codec P) (row : QueueRow P) (env : DbEnvelope) : Prop :=
  row.id = env.id ∧ codec.decode row.payload = some env.msg

/-- What was handed over and what is pending was read from rows, and comes in the order of the
ids, up to the last id that was read. -/
structure SentInOrder (codec : Codec P) (t : StoreSystem P) : Prop where
  sorted : ((t.history.handed ++ t.spooler.pendingSend).map DbEnvelope.id).Pairwise (· < ·)
  bound : ∀ env ∈ t.history.handed ++ t.spooler.pendingSend, env.id ≤ t.spooler.lastSentId
  origin : ∀ env ∈ t.history.handed ++ t.spooler.pendingSend,
    ∃ row ∈ t.history.rows, Reads codec row env

theorem reads_of_mem_decoded {rows : List (QueueRow P)} {env : DbEnvelope}
    (h : env ∈ decoded codec rows) : ∃ row ∈ rows, Reads codec row env := by
  obtain ⟨row, hrow, hdecode⟩ := List.mem_filterMap.mp h
  obtain ⟨msg, hmsg, rfl⟩ := Option.map_eq_some_iff.mp hdecode
  exact ⟨row, hrow, rfl, hmsg⟩

theorem decoded_ids_sublist (rows : List (QueueRow P)) :
    ((decoded codec rows).map DbEnvelope.id).Sublist (rows.map QueueRow.id) := by
  induction rows with
  | nil => exact List.Sublist.refl _
  | cons row rows ih =>
    rw [decoded, List.filterMap_cons]
    cases codec.decode row.payload with
    | none => exact ih.cons row.id
    | some msg => exact ih.cons_cons row.id

/-- In a sorted list nothing is behind the last item. -/
theorem le_getLastD_of_pairwise {ids : List ℤ} (h : ids.Pairwise (· < ·)) (d : ℤ) {i : ℤ}
    (hi : i ∈ ids) : i ≤ ids.getLastD d := by
  induction ids generalizing d i with
  | nil => cases hi
  | cons j ids ih =>
    obtain ⟨hj, hrest⟩ := List.pairwise_cons.mp h
    rw [List.getLastD_cons]
    rcases List.mem_cons.mp hi with rfl | hmem
    · cases ids with
      | nil => exact le_refl i
      | cons k ids => exact (hj k List.mem_cons_self).le.trans (ih hrest i List.mem_cons_self)
    · exact ih hrest j hmem

namespace SentInOrder

theorem start (disk : Disk P) (pg : Database) (history : History P) :
    SentInOrder codec (StoreSystem.start disk pg history) :=
  ⟨List.Pairwise.nil, fun _ h => absurd h List.not_mem_nil, fun _ h => absurd h List.not_mem_nil⟩

theorem of_eq {t u : StoreSystem P} (h : SentInOrder codec t)
    (hsent : u.history.handed ++ u.spooler.pendingSend = t.history.handed ++ t.spooler.pendingSend)
    (hlast : u.spooler.lastSentId = t.spooler.lastSentId)
    (hrows : t.history.rows ⊆ u.history.rows) : SentInOrder codec u := by
  constructor
  · rw [hsent]
    exact h.sorted
  · rw [hsent, hlast]
    exact h.bound
  · rw [hsent]
    intro env henv
    obtain ⟨row, hrow, hreads⟩ := h.origin env henv
    exact ⟨row, hrows hrow, hreads⟩

theorem rowsFetched {t : StoreSystem P} (h : SentInOrder codec t) (hnum : Numbered t)
    (fetchOk deleteOk : Bool) : SentInOrder codec (t.rowsFetched codec fetchOk deleteOk) := by
  unfold StoreSystem.rowsFetched
  obtain heq | ⟨rows, stats, htaken, heq⟩ := fetchRows_cases codec fetchOk deleteOk
    (dbWriterChannelCapacity - t.writerRx.length) t.spooler t.disk
  · rw [heq]
    exact h.of_eq rfl rfl (List.Subset.refl _)
  · rw [heq]
    have hsublist := htaken.sublist
    -- The new rows are behind everything sent so far, in their own order.
    have hsub : rows.Sublist t.history.rows :=
      (hsublist.trans List.filter_sublist).trans hnum.onDisk
    have hsorted : (rows.map QueueRow.id).Pairwise (· < ·) := hnum.sorted.sublist (hsub.map _)
    have hbehind : ∀ row ∈ rows, t.spooler.lastSentId < row.id := fun row hrow =>
      of_decide_eq_true (List.mem_filter.mp (hsublist.subset hrow)).2
    have hlast : ∀ row ∈ rows, row.id ≤ (rows.map QueueRow.id).getLastD t.spooler.lastSentId :=
      fun row hrow => le_getLastD_of_pairwise hsorted _ (List.mem_map.mpr ⟨row, hrow, rfl⟩)
    have hlast_le : t.spooler.lastSentId ≤
        (rows.map QueueRow.id).getLastD t.spooler.lastSentId := by
      cases rows with
      | nil => exact le_refl _
      | cons row rows =>
        exact (hbehind row List.mem_cons_self).le.trans (hlast row List.mem_cons_self)
    constructor
    · dsimp only
      rw [← List.append_assoc, List.map_append, List.pairwise_append]
      refine ⟨h.sorted, hsorted.sublist (decoded_ids_sublist rows), ?_⟩
      intro i hi j hj
      obtain ⟨env, henv, rfl⟩ := List.mem_map.mp hi
      obtain ⟨env', henv', rfl⟩ := List.mem_map.mp hj
      obtain ⟨row, hrow, hid, -⟩ := reads_of_mem_decoded henv'
      rw [← hid]
      exact lt_of_le_of_lt (h.bound env henv) (hbehind row hrow)
    · dsimp only
      intro env henv
      rw [← List.append_assoc] at henv
      rcases List.mem_append.mp henv with hold | hnew
      · exact (h.bound env hold).trans hlast_le
      · obtain ⟨row, hrow, hid, -⟩ := reads_of_mem_decoded hnew
        rw [← hid]
        exact hlast row hrow
    · dsimp only
      intro env henv
      rw [← List.append_assoc] at henv
      rcases List.mem_append.mp henv with hold | hnew
      · exact h.origin env hold
      · obtain ⟨row, hrow, hreads⟩ := reads_of_mem_decoded hnew
        exact ⟨row, hsub.subset hrow, hreads⟩

theorem move (t u : StoreSystem P) (h : SentInOrder codec t) (hnum : Numbered t)
    (hmove : Move codec cfg t u) : SentInOrder codec u := by
  cases hmove with
  | inserted ok =>
    obtain ⟨insertBuf, stats, disk, inserted, heq, -, -⟩ :=
      flushInsert_cases codec ok t.spooler t.disk
    unfold StoreSystem.insertFlushed
    rw [heq]
    exact h.of_eq rfl rfl (List.subset_append_left _ _)
  | @handed _ env rest hpending =>
    refine h.of_eq ?_ rfl (List.Subset.refl _)
    rw [hpending, StoreSystem.handOver]
    simp
  | fetched fetchOk deleteOk => exact h.rowsFetched hnum fetchOk deleteOk
  | deleted oks =>
    obtain ⟨ackBuf, stats, disk, heq, -⟩ := flushAck_cases oks t.spooler t.disk
    unfold StoreSystem.acksFlushed
    rw [heq]
    exact h.of_eq rfl rfl (List.Subset.refl _)
  | restarted => exact start _ _ _
  | accepted | buffered | pumped | acked | received | ticked =>
    exact h.of_eq rfl rfl (List.Subset.refl _)

end SentInOrder

/-! ## What becomes of rows -/

/-- What the writer is done with: its message was skipped, or committed. -/
def History.settled (history : History P) : List DbEnvelope :=
  history.skipped ++ history.committed

/-- Where messages and acknowledgements come from, and why rows are gone. -/
structure Accounted (codec : Codec P) (cfg : WriterConfig) (t : StoreSystem P) : Prop where
  origin : ∀ env ∈ t.writerRx ++ t.writer.buffers.entries ++ t.history.settled,
    ∃ row ∈ t.history.rows, Reads codec row env
  skipped : ∀ env ∈ t.history.skipped, cfg.skips env.msg = true
  acked : ∀ id ∈ t.ackRx ++ t.spooler.ackBuf, ∃ env ∈ t.history.settled, env.id = id
  gone : ∀ row ∈ t.history.rows, row ∈ t.disk.rows ∨ codec.decode row.payload = none ∨
    ∃ env ∈ t.history.settled, Reads codec row env

namespace Accounted

theorem init {t : StoreSystem P} (h : t.Initial) : Accounted codec cfg t := by
  obtain ⟨disk, pg, rfl⟩ := h.started
  constructor
  · intro env hmem
    simp [StoreSystem.start, History.settled] at hmem
  · exact fun env hmem => absurd hmem List.not_mem_nil
  · exact fun id hmem => absurd hmem List.not_mem_nil
  · exact fun row hrow => .inl hrow

/-- A change that keeps rows and history and only moves messages and acknowledgements on. -/
theorem of_subset {t u : StoreSystem P} (h : Accounted codec cfg t)
    (hrows : u.history.rows = t.history.rows) (hskipped : u.history.skipped = t.history.skipped)
    (hcommitted : u.history.committed = t.history.committed) (hdisk : u.disk = t.disk)
    (hmsgs : u.writerRx ++ u.writer.buffers.entries ⊆ t.writerRx ++ t.writer.buffers.entries)
    (hacks : u.ackRx ++ u.spooler.ackBuf ⊆ t.ackRx ++ t.spooler.ackBuf) :
    Accounted codec cfg u := by
  have hsettled : u.history.settled = t.history.settled := by
    rw [History.settled, hskipped, hcommitted, History.settled]
  constructor
  · intro env henv
    rw [hrows]
    rw [hsettled] at henv
    rcases List.mem_append.mp henv with hmsg | hdone
    · exact h.origin env (List.mem_append_left _ (hmsgs hmsg))
    · exact h.origin env (List.mem_append_right _ hdone)
  · rw [hskipped]
    exact h.skipped
  · rw [hsettled]
    exact fun id hid => h.acked id (hacks hid)
  · rw [hrows, hdisk, hsettled]
    exact h.gone

theorem insertFlushed {t : StoreSystem P} (h : Accounted codec cfg t) (ok : Bool) :
    Accounted codec cfg (t.insertFlushed codec ok) := by
  obtain ⟨insertBuf, stats, disk, inserted, heq, hinserted, -⟩ :=
    flushInsert_cases codec ok t.spooler t.disk
  have hdisk : ∃ added, disk.rows = t.disk.rows ++ added ∧
      added = inserted.map fun (id, _, p) => (⟨id, p⟩ : QueueRow P) := by
    rcases hinserted with ⟨rfl, rfl⟩ | ⟨rfl, rfl⟩
    · exact ⟨[], (List.append_nil _).symm, rfl⟩
    · exact ⟨_, Disk.insert_rows _ _, rfl⟩
  obtain ⟨added, hrows, rfl⟩ := hdisk
  unfold StoreSystem.insertFlushed
  rw [heq]
  constructor
  · intro env henv
    obtain ⟨row, hrow, hreads⟩ := h.origin env henv
    exact ⟨row, List.mem_append_left _ hrow, hreads⟩
  · exact h.skipped
  · exact h.acked
  · intro row hrow
    dsimp only
    rw [hrows]
    rcases List.mem_append.mp hrow with hold | hnew
    · exact (h.gone row hold).imp_left (List.mem_append_left _)
    · exact .inl (List.mem_append_right _ hnew)

theorem rowsFetched {t : StoreSystem P} (h : Accounted codec cfg t) (hnum : Numbered t)
    (fetchOk deleteOk : Bool) : Accounted codec cfg (t.rowsFetched codec fetchOk deleteOk) := by
  unfold StoreSystem.rowsFetched
  obtain heq | ⟨rows, stats, htaken, heq⟩ := fetchRows_cases codec fetchOk deleteOk
    (dbWriterChannelCapacity - t.writerRx.length) t.spooler t.disk
  · rw [heq]
    exact h.of_subset rfl rfl rfl rfl (List.Subset.refl _) (List.Subset.refl _)
  · rw [heq]
    have hsublist := htaken.sublist
    have hfetched : ∀ row ∈ rows, row ∈ t.history.rows := fun row hrow =>
      hnum.onDisk.subset (List.mem_of_mem_filter (hsublist.subset hrow))
    constructor
    · exact h.origin
    · exact h.skipped
    · exact h.acked
    · intro row hrow
      rcases h.gone row hrow with hdisk | hgone
      · by_cases hbad : row.id ∈ badIds codec rows
        · -- Only a row that cannot be decoded has such an id.
          obtain ⟨row', hrow', hid⟩ := List.mem_map.mp hbad
          obtain ⟨hmem, hnone⟩ := List.mem_filter.mp hrow'
          have hsame : row' = row := hnum.row_eq (hfetched row' hmem) hrow hid
          exact .inr (.inl (hsame ▸ Option.isNone_iff_eq_none.mp hnone))
        · exact .inl (t.disk.mem_deleteIds hdisk hbad)
      · exact .inr hgone

theorem acksFlushed {t : StoreSystem P} (h : Accounted codec cfg t) (hnum : Numbered t)
    (oks : ℕ → Bool) : Accounted codec cfg (t.acksFlushed oks) := by
  obtain ⟨ackBuf, stats, disk, heq, hsubset, -, -, hkept⟩ := flushAck_cases oks t.spooler t.disk
  unfold StoreSystem.acksFlushed
  rw [heq]
  constructor
  · exact h.origin
  · exact h.skipped
  · intro id hid
    refine h.acked id ?_
    rcases List.mem_append.mp hid with hrx | hbuf
    · exact List.mem_append_left _ hrx
    · exact List.mem_append_right _ (hsubset hbuf)
  · intro row hrow
    rcases h.gone row hrow with hdisk | hgone
    · by_cases hid : row.id ∈ t.spooler.ackBuf
      · -- The acknowledged message was read from this row, as no other has its id.
        obtain ⟨env, henv, henvId⟩ := h.acked row.id (List.mem_append_right _ hid)
        obtain ⟨row', hrow', hreads⟩ := h.origin env (List.mem_append_right _ henv)
        have hsame : row' = row := hnum.row_eq hrow' hrow (hreads.1.trans henvId)
        exact .inr (.inr ⟨env, henv, hsame ▸ hreads⟩)
      · exact .inl (hkept row hdisk hid)
    · exact .inr hgone

/-- A step of the writer settles some of its messages, with those it took from the channel. -/
theorem wrote {t : StoreSystem P} (h : Accounted codec cfg t) {writerRx : List DbEnvelope}
    {result : Writer × WriterOutput}
    (hmsgs : writerRx ++ (result.2.skipped ++ result.2.committed ++
      result.1.buffers.entries) ⊆ t.writerRx ++ t.writer.buffers.entries)
    (hskips : ∀ env ∈ result.2.skipped, cfg.skips env.msg = true) :
    Accounted codec cfg (t.wrote writerRx result) := by
  have hold : ∀ env ∈ t.history.settled, env ∈ (t.wrote writerRx result).history.settled := by
    intro env henv
    rcases List.mem_append.mp henv with hskipped | hcommitted
    · exact List.mem_append_left _ (List.mem_append_left _ hskipped)
    · exact List.mem_append_right _ (List.mem_append_left _ hcommitted)
  constructor
  · intro env henv
    refine h.origin env ?_
    -- What the step moved was in the channel or in a buffer.
    have hmoved (hnew : env ∈ writerRx ++ (result.2.skipped ++ result.2.committed ++
        result.1.buffers.entries)) : env ∈ t.writerRx ++ t.writer.buffers.entries ++
          t.history.settled := List.mem_append_left _ (hmsgs hnew)
    simp only [StoreSystem.wrote, History.settled, List.mem_append] at henv hmoved ⊢
    rcases henv with (hrx | hbuf) | (hskipped | hskips') | (hcommitted | hcommits)
    · exact hmoved (.inl hrx)
    · exact hmoved (.inr (.inr hbuf))
    · exact .inr (.inl hskipped)
    · exact hmoved (.inr (.inl (.inl hskips')))
    · exact .inr (.inr hcommitted)
    · exact hmoved (.inr (.inl (.inr hcommits)))
  · intro env henv
    rcases List.mem_append.mp henv with hbefore | hnow
    · exact h.skipped env hbefore
    · exact hskips env hnow
  · intro id hid
    have hcases : id ∈ result.2.acks ∨ id ∈ t.ackRx ++ t.spooler.ackBuf := by
      simp only [StoreSystem.wrote, List.mem_append] at hid ⊢
      tauto
    rcases hcases with hnow | hbefore
    · obtain ⟨env, henv, rfl⟩ := List.mem_map.mp hnow
      refine ⟨env, ?_, rfl⟩
      rcases List.mem_append.mp henv with hskipped | hcommitted
      · exact List.mem_append_left _ (List.mem_append_right _ hskipped)
      · exact List.mem_append_right _ (List.mem_append_right _ hcommitted)
    · obtain ⟨env, henv, henvId⟩ := h.acked id hbefore
      exact ⟨env, hold env henv, henvId⟩
  · intro row hrow
    rcases h.gone row hrow with hdisk | hnone | ⟨env, henv, hreads⟩
    · exact .inl hdisk
    · exact .inr (.inl hnone)
    · exact .inr (.inr ⟨env, hold env henv, hreads⟩)

/-- A message on its way to the writer was read from a row, as it was pending before. -/
theorem handOver {t : StoreSystem P} (h : Accounted codec cfg t) (hsent : SentInOrder codec t)
    {env : DbEnvelope} {rest : List DbEnvelope} (hpending : t.spooler.pendingSend = env :: rest) :
    Accounted codec cfg (t.handOver env rest) := by
  constructor
  · intro e he
    have hcases : e = env ∨ e ∈ t.writerRx ++ t.writer.buffers.entries ++ t.history.settled := by
      simp only [StoreSystem.handOver, History.settled, List.mem_append,
        List.mem_singleton] at he ⊢
      tauto
    rcases hcases with rfl | hold
    · refine hsent.origin e (List.mem_append_right _ ?_)
      rw [hpending]
      exact List.mem_cons_self
    · exact h.origin e hold
  · exact h.skipped
  · exact h.acked
  · exact h.gone

/-- The writer may have been started with another configuration, if it skips no more. -/
theorem move {cfg' : WriterConfig} (hskips : ∀ msg, cfg'.skips msg = true → cfg.skips msg = true)
    (t u : StoreSystem P) (h : Accounted codec cfg t) (hnum : Numbered t)
    (hsent : SentInOrder codec t) (hmove : Move codec cfg' t u) : Accounted codec cfg u := by
  cases hmove with
  | inserted ok => exact h.insertFlushed ok
  | handed hpending => exact h.handOver hsent hpending
  | fetched fetchOk deleteOk => exact h.rowsFetched hnum fetchOk deleteOk
  | @acked _ ackId ackRx hacks =>
    refine h.of_subset rfl rfl rfl rfl (List.Subset.refl _) ?_
    intro id hid
    simp only [StoreSystem.bufferAck, hacks, List.mem_append, List.mem_cons] at hid ⊢
    tauto
  | deleted oks => exact h.acksFlushed hnum oks
  | @received _ env writerRx hrx faults nowMs =>
    refine h.wrote ?_ fun e he => hskips e.msg (t.writer.receive_skipped he)
    intro e he
    have hperm := @Writer.receive_entries cfg' faults nowMs t.writer env
    rw [hrx]
    rcases List.mem_append.mp he with hrest | hhere
    · exact List.mem_append_left _ (List.mem_cons_of_mem _ hrest)
    · rcases List.mem_cons.mp (hperm.subset hhere) with rfl | hbuffered
      · exact List.mem_append_left _ List.mem_cons_self
      · exact List.mem_append_right _ hbuffered
  | ticked faults nowMs =>
    refine h.wrote ?_ fun e he => absurd he List.not_mem_nil
    rw [Writer.tick_entries]
    exact List.Subset.refl _
  | restarted =>
    refine h.of_subset rfl rfl rfl rfl ?_ (List.nil_subset _)
    intro e he
    simp [StoreSystem.start] at he
  | accepted | buffered | pumped =>
    exact h.of_subset rfl rfl rfl rfl (List.Subset.refl _) (List.Subset.refl _)

end Accounted

/-! ## What becomes of messages -/

/-- The messages of this run are, in the order they were accepted, those that have a row, those
in the insert buffer and those in the channel. -/
structure Retained (codec : Codec P) (t : StoreSystem P) : Prop where
  inOrder : t.history.accepted =
    t.history.persisted.map Prod.snd ++ t.spooler.insertBuf ++ t.ingest
  stored : ∀ p ∈ t.history.persisted, ∃ row ∈ t.history.rows,
    row.id = p.1 ∧ codec.encode p.2 = some row.payload

theorem serializable_fst (hencode : ∀ msg, (codec.encode msg).isSome) (batch : List DbMessage) :
    (serializable codec batch).map Prod.fst = batch := by
  induction batch with
  | nil => rfl
  | cons msg batch ih =>
    obtain ⟨payload, hpayload⟩ := Option.isSome_iff_exists.mp (hencode msg)
    rw [serializable, List.filterMap_cons, hpayload]
    exact congrArg (msg :: ·) ih

theorem encode_of_mem_serializable {batch : List DbMessage} {msg : DbMessage} {payload : P}
    (h : (msg, payload) ∈ serializable codec batch) : codec.encode msg = some payload := by
  obtain ⟨msg', -, heq⟩ := List.mem_filterMap.mp h
  obtain ⟨payload', hpayload, hpair⟩ := Option.map_eq_some_iff.mp heq
  obtain ⟨rfl, rfl⟩ := Prod.mk.inj hpair
  exact hpayload

namespace Retained

theorem start (disk : Disk P) (pg : Database) (history : History P) :
    Retained codec (StoreSystem.start disk pg history) :=
  ⟨rfl, fun _ h => absurd h List.not_mem_nil⟩

theorem of_eq {t u : StoreSystem P} (h : Retained codec t)
    (haccepted : u.history.accepted = t.history.accepted)
    (hpersisted : u.history.persisted = t.history.persisted)
    (hmsgs : u.spooler.insertBuf ++ u.ingest = t.spooler.insertBuf ++ t.ingest)
    (hrows : u.history.rows = t.history.rows) : Retained codec u := by
  constructor
  · rw [haccepted, hpersisted, List.append_assoc, hmsgs, ← List.append_assoc]
    exact h.inOrder
  · rw [hpersisted, hrows]
    exact h.stored

theorem insertFlushed {t : StoreSystem P} (h : Retained codec t)
    (hencode : ∀ msg, (codec.encode msg).isSome) (ok : Bool) :
    Retained codec (t.insertFlushed codec ok) := by
  obtain ⟨insertBuf, stats, disk, inserted, heq, hinserted, hbuf⟩ :=
    flushInsert_cases codec ok t.spooler t.disk
  rw [serializable_fst hencode] at hbuf
  unfold StoreSystem.insertFlushed
  rw [heq]
  constructor
  · dsimp only
    rw [h.inOrder, ← hbuf, List.map_append, List.map_map]
    simp only [List.append_assoc]
    rfl
  · intro p hp
    rcases List.mem_append.mp hp with hold | hnew
    · obtain ⟨row, hrow, hspec⟩ := h.stored p hold
      exact ⟨row, List.mem_append_left _ hrow, hspec⟩
    · obtain ⟨⟨id, msg, payload⟩, hmem, rfl⟩ := List.mem_map.mp hnew
      have hpayload : codec.encode msg = some payload := by
        rcases hinserted with ⟨rfl, -⟩ | ⟨rfl, -⟩
        · cases hmem
        · refine @encode_of_mem_serializable _ codec t.spooler.insertBuf msg payload ?_
          rw [← map_snd_numberFrom (t.disk.sequence + 1) (serializable codec t.spooler.insertBuf)]
          exact List.mem_map.mpr ⟨_, hmem, rfl⟩
      exact ⟨⟨id, payload⟩, List.mem_append_right _ (List.mem_map.mpr ⟨_, hmem, rfl⟩), rfl,
        hpayload⟩

theorem move (hencode : ∀ msg, (codec.encode msg).isSome) (t u : StoreSystem P)
    (h : Retained codec t) (hmove : Move codec cfg t u) : Retained codec u := by
  cases hmove with
  | accepted msg =>
    constructor
    · rw [StoreSystem.accept, h.inOrder, List.append_assoc _ t.ingest]
    · exact h.stored
  | buffered hingest =>
    refine h.of_eq rfl rfl ?_ rfl
    rw [hingest, StoreSystem.bufferMsg]
    simp
  | inserted ok => exact h.insertFlushed hencode ok
  | fetched fetchOk deleteOk =>
    unfold StoreSystem.rowsFetched
    obtain heq | ⟨rows, stats, -, heq⟩ := fetchRows_cases codec fetchOk deleteOk
      (dbWriterChannelCapacity - t.writerRx.length) t.spooler t.disk
    · rw [heq]
      exact h.of_eq rfl rfl rfl rfl
    · rw [heq]
      exact h.of_eq rfl rfl rfl rfl
  | deleted oks =>
    obtain ⟨ackBuf, stats, disk, heq, -⟩ := flushAck_cases oks t.spooler t.disk
    unfold StoreSystem.acksFlushed
    rw [heq]
    exact h.of_eq rfl rfl rfl rfl
  | restarted => exact start _ _ _
  | pumped | handed | acked | received | ticked => exact h.of_eq rfl rfl rfl rfl

end Retained

/-! ## Delivery -/

/-- The three invariants of rows together. -/
theorem tracked_of_reachable {t : StoreSystem P} (h : (storeMachine codec cfg).Reachable t) :
    Numbered t ∧ SentInOrder codec t ∧ Accounted codec cfg t := by
  refine storeMachine_inv (fun t => Numbered t ∧ SentInOrder codec t ∧ Accounted codec cfg t)
    (fun t hinit => ⟨.init hinit, ?_, .init hinit⟩)
    (fun t u hi hmove => ⟨hi.1.move t u hmove, hi.2.1.move t u hi.1 hmove,
      hi.2.2.move (fun _ hskip => hskip) t u hi.1 hi.2.1 hmove⟩) h
  obtain ⟨disk, pg, rfl⟩ := hinit.started
  exact .start _ _ _

theorem retained_of_reachable (hencode : ∀ msg, (codec.encode msg).isSome) {t : StoreSystem P}
    (h : (storeMachine codec cfg).Reachable t) : Retained codec t := by
  refine storeMachine_inv (Retained codec) (fun t hinit => ?_) (Retained.move hencode) h
  obtain ⟨disk, pg, rfl⟩ := hinit.started
  exact .start _ _ _

/-- Where a row's message is, or why it is nowhere: on disk, in Postgres by a committed
transaction, or left out because it cannot be decoded or the writer skips it. -/
def StoreSystem.Keeps (codec : Codec P) (cfg : WriterConfig) (t : StoreSystem P)
    (row : QueueRow P) : Prop :=
  row ∈ t.disk.rows ∨ (∃ env ∈ t.history.committed, Reads codec row env) ∨
    codec.decode row.payload = none ∨
    ∃ env ∈ t.history.skipped, Reads codec row env ∧ cfg.skips env.msg = true

theorem Accounted.keeps {t : StoreSystem P} (h : Accounted codec cfg t) {row : QueueRow P}
    (hrow : row ∈ t.history.rows) : t.Keeps codec cfg row := by
  rcases h.gone row hrow with hdisk | hnone | ⟨env, henv, hreads⟩
  · exact .inl hdisk
  · exact .inr (.inr (.inl hnone))
  · rcases List.mem_append.mp henv with hskipped | hcommitted
    · exact .inr (.inr (.inr ⟨env, hskipped, hreads, h.skipped env hskipped⟩))
    · exact .inr (.inl ⟨env, hcommitted, hreads⟩)

/-- However the steps interleave and whatever the databases fail: rows are handed to the writer in
the order of their ids, a row leaves the disk only for one of the three reasons, and the accepted
messages are in rows, in the insert buffer and in the channel. -/
theorem queue_delivers (codec : Codec P) (cfg : WriterConfig)
    (hencode : ∀ msg, (codec.encode msg).isSome) {t : StoreSystem P}
    (h : (storeMachine codec cfg).Reachable t) :
    (t.history.handed.map DbEnvelope.id).Pairwise (· < ·) ∧
      (∀ env ∈ t.history.handed, ∃ row ∈ t.history.rows, Reads codec row env) ∧
      (∀ row ∈ t.history.rows, t.Keeps codec cfg row) ∧
      t.history.accepted = t.history.persisted.map Prod.snd ++ t.spooler.insertBuf ++ t.ingest ∧
      ∀ p ∈ t.history.persisted, ∃ row ∈ t.history.rows,
        row.id = p.1 ∧ codec.encode p.2 = some row.payload ∧ t.Keeps codec cfg row := by
  obtain ⟨-, hsent, haccounted⟩ := tracked_of_reachable h
  have hretained := retained_of_reachable hencode h
  refine ⟨?_, ?_, fun row hrow => haccounted.keeps hrow, hretained.inOrder, ?_⟩
  · exact hsent.sorted.sublist ((List.sublist_append_left _ _).map _)
  · exact fun env henv => hsent.origin env (List.mem_append_left _ henv)
  · intro p hp
    obtain ⟨row, hrow, hid, hpayload⟩ := hretained.stored p hp
    exact ⟨row, hrow, hid, hpayload, haccounted.keeps hrow⟩

/-! ## A skipped message -/

/-- A codec whose payload is the message. -/
def plainCodec : Codec DbMessage := ⟨some, some⟩

/-- Alpha capture is off. -/
def captureOff : WriterConfig := ⟨false, false⟩

def emptyStore : StoreSystem DbMessage :=
  StoreSystem.start ⟨[], 0⟩ Database.fresh ⟨[], [], [], [], [], []⟩

theorem emptyStore_initial : emptyStore.Initial where
  started := ⟨⟨[], 0⟩, Database.fresh, rfl⟩
  sorted := List.Pairwise.nil
  numbered _ h := absurd h List.not_mem_nil
  sequence_nonneg := le_refl 0

def skippedEvent : DbMessage := .rawEvent
  { venue := .polymarket
    tokenKey := "token"
    kind := .trade
    channel := none
    exchangeTsMs := 1000
    localTsMs := 1000
    exchangeTsSource := .venueWs
    flags := EventFlags.none
    payload := EventPayload.empty }

/-- One message goes all the way through. -/
def passRun (msg : DbMessage) : List StoreEvent :=
  [.send msg, .recvMsg true, .insertTick true, .sendTick, .pump true true, .pump true true,
    .pump true true, .pump true true, .writerRecv PgFaults.none 2000, .writerTick PgFaults.none 2000,
    .recvAck fun _ => true, .ackTick fun _ => true]

def skippedStore : StoreSystem DbMessage :=
  ((storeMachine plainCodec captureOff).run emptyStore (passRun skippedEvent)).get
    (by decide +kernel)

theorem skippedStore_reachable : (storeMachine plainCodec captureOff).Reachable skippedStore :=
  ⟨emptyStore, passRun skippedEvent, emptyStore_initial, (Option.some_get _).symm⟩

def sampleOffset : DbMessage := .clockOffset
  { venue := .polymarket
    localTsMs := 1000
    exchangeTsMs := 990
    sampleOffsetMs := 10
    smoothedOffsetMs := 10
    deltaClampedMs := 0 }

/-- The first of three messages is skipped, the second is committed, and the third has just been
handed to the writer. -/
def threeRun : List StoreEvent :=
  [.send skippedEvent, .recvMsg true, .send sampleOffset, .recvMsg true, .insertTick true,
    .send skippedEvent, .sendTick, .pump true true, .pump true true, .pump true true,
    .writerRecv PgFaults.none 2000, .pump true true, .writerRecv PgFaults.none 2000,
    .pump true true, .writerTick PgFaults.none 2000, .recvAck fun _ => true, .recvAck fun _ => true,
    .ackTick fun _ => true, .recvMsg true, .insertTick true, .sendTick, .pump true true,
    .pump true true, .pump true true]

/-- Then the process starts again. -/
def restartedRun : List StoreEvent :=
  threeRun ++ [.restart, .sendTick, .pump true true, .pump true true, .pump true true]

def restartedStore : StoreSystem DbMessage :=
  ((storeMachine plainCodec captureOff).run emptyStore restartedRun).get (by decide +kernel)

theorem restartedStore_reachable : (storeMachine plainCodec captureOff).Reachable restartedStore :=
  ⟨emptyStore, restartedRun, emptyStore_initial, (Option.some_get _).symm⟩

theorem queue_delivers_restarted :
    (restartedStore.history.skipped.map DbEnvelope.id = [1] ∧
        restartedStore.history.committed.map DbEnvelope.id = [2] ∧
        restartedStore.history.handed.map DbEnvelope.id = [3]) ∧
      (restartedStore.history.handed.map DbEnvelope.id).Pairwise (· < ·) ∧
      (∀ env ∈ restartedStore.history.handed, ∃ row ∈ restartedStore.history.rows,
        Reads plainCodec row env) ∧
      (∀ row ∈ restartedStore.history.rows, restartedStore.Keeps plainCodec captureOff row) ∧
      restartedStore.history.accepted = restartedStore.history.persisted.map Prod.snd ++
        restartedStore.spooler.insertBuf ++ restartedStore.ingest ∧
      ∀ p ∈ restartedStore.history.persisted, ∃ row ∈ restartedStore.history.rows,
        row.id = p.1 ∧ plainCodec.encode p.2 = some row.payload ∧
          restartedStore.Keeps plainCodec captureOff row :=
  ⟨by decide +kernel,
    queue_delivers plainCodec captureOff (fun _ => rfl) restartedStore_reachable⟩

/-- With alpha capture off an accepted event is in the end in no buffer, on no disk and in no
table. -/
theorem skipped_message_lost :
    ¬ ∀ (codec : Codec DbMessage) (cfg : WriterConfig),
      (∀ msg, (codec.encode msg).isSome) → ∀ t : StoreSystem DbMessage,
        (storeMachine codec cfg).Reachable t → ∀ msg ∈ t.history.accepted,
          msg ∈ t.ingest ++ t.spooler.insertBuf ∨
          (∃ row ∈ t.disk.rows, codec.decode row.payload = some msg) ∨
          (∃ env ∈ t.spooler.pendingSend ++ t.writerRx ++ t.writer.buffers.entries,
            env.msg = msg) ∨
          ∃ env ∈ t.history.committed, env.msg = msg := by
  intro hall
  have hcases := hall plainCodec captureOff (fun _ => rfl) skippedStore skippedStore_reachable
    skippedEvent (by decide +kernel)
  revert hcases
  decide +kernel

end AlphaMonitor.Store
