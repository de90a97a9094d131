import AlphaMonitor.Pair.Confluence

/-!
# Batches of the writer

The writer stages the rows that it receives and flushes them batch by batch; where a
batch ends depends on timers and queue lengths.  Inside a batch the last row of a key
replaces the others, across batches the conflict rule of `bars_1s_pair` merges the new
row into the stored one.  The two rules differ in one column.

## Main results

- `writeAll_eq`: the stored row of a key, however the messages are cut into batches
- `batching_independent_iff`: when the cut does not show
-/

namespace AlphaMonitor.Pair

open AlphaMonitor.Lib

/-- The table after the writer has flushed the batches one after another. -/
def writeAll (table : PairTable) (batches : List (List Bars1sPair)) : PairTable :=
  batches.foldl writePairBars table

theorem onConflict_columnwise : Columnwise onConflict :=
  ⟨fun _ => rfl, fun _ _ _ => rfl⟩

/-- Chunks of a batch do not show. -/
theorem writePairBars_eq (table : PairTable) (staged : List Bars1sPair) :
    writePairBars table staged =
      upsertRows Bars1sPair.key onConflict table (dedupeRows Bars1sPair.key staged) := by
  rw [writePairBars, foldl_upsertRows, flatten_toChunks]

/-- The stored row of a key: the row that was stored first, and everything that the
conflict rule updates from the last message. -/
theorem writeAll_eq (table : PairTable) (batches : List (List Bars1sPair)) (key : BarKey) :
    writeAll table batches key =
      Option.map₂ onConflict (firstStored Bars1sPair.key table batches key)
        ((lastRow Bars1sPair.key key batches.flatten).or (table key)) := by
  have hall : writeAll table batches =
      writeBatches Bars1sPair.key onConflict table batches := by
    unfold writeAll writeBatches
    congr 1
    funext table staged
    exact writePairBars_eq table staged
  rw [hall]
  exact onConflict_columnwise.writeBatches table batches key

/-- The new row is stored as it is if it agrees with the old one on the column that is
not updated. -/
theorem onConflict_eq_right_iff (old new : Bars1sPair) :
    onConflict old new = new ↔ old.rollingCorrSamples5m = new.rollingCorrSamples5m := by
  constructor
  · intro h
    exact congrArg (·.rollingCorrSamples5m) h
  · intro h
    unfold onConflict
    rw [h]

/-- The sample count of the row that is stored first for a key is that of its last
message. -/
def KeepsSamples (table : PairTable) (batches : List (List Bars1sPair)) : Prop :=
  ∀ key first last, firstStored Bars1sPair.key table batches key = some first →
    lastRow Bars1sPair.key key batches.flatten = some last →
      first.rollingCorrSamples5m = last.rollingCorrSamples5m

/-- The last message of every key is what is stored for it. -/
def StoresLast (table : PairTable) (batches : List (List Bars1sPair)) : Prop :=
  ∀ key, writeAll table batches key =
    (lastRow Bars1sPair.key key batches.flatten).or (table key)

theorem storesLast_iff (table : PairTable) (batches : List (List Bars1sPair)) :
    StoresLast table batches ↔ KeepsSamples table batches := by
  constructor
  · intro h key first last hfirst hlast
    have hkey := h key
    rw [writeAll_eq, hfirst, hlast] at hkey
    exact (onConflict_eq_right_iff first last).mp (Option.some.inj hkey)
  · intro h key
    have hsome := @isSome_findSome?_lastRow _ _ _ Bars1sPair.key batches key
    rw [writeAll_eq]
    cases hlast : lastRow Bars1sPair.key key batches.flatten with
    | some last =>
      rw [hlast] at hsome
      obtain ⟨row, hrow⟩ := Option.isSome_iff_exists.mp hsome
      obtain ⟨first, hfirst⟩ : ∃ first, firstStored Bars1sPair.key table batches key = some first := by
        unfold firstStored
        rw [hrow]
        cases table key with
        | none => exact ⟨row, rfl⟩
        | some old => exact ⟨old, rfl⟩
      rw [hfirst]
      exact congrArg some ((onConflict_eq_right_iff first last).mpr (h key first last hfirst hlast))
    | none =>
      -- Without a message the row of the table stays.
      rw [hlast] at hsome
      have hnone : batches.findSome? (lastRow Bars1sPair.key key) = none :=
        Option.isNone_iff_eq_none.mp (by rw [← Option.not_isSome, hsome]; rfl)
      unfold firstStored
      rw [hnone]
      cases table key with
      | none => rfl
      | some row => exact congrArg some (onConflict_columnwise.same row)

/-- Two ways to cut the messages into batches leave the same rows, each the last message
of its key, exactly when in both the row that is stored first for a key has the sample
count of the last message. -/
theorem batching_independent_iff (table : PairTable) {batches₁ batches₂ : List (List Bars1sPair)}
    (h : batches₁.flatten = batches₂.flatten) :
    (∀ key, writeAll table batches₁ key = writeAll table batches₂ key ∧
        writeAll table batches₁ key =
          (lastRow Bars1sPair.key key batches₁.flatten).or (table key)) ↔
      KeepsSamples table batches₁ ∧ KeepsSamples table batches₂ := by
  rw [← storesLast_iff, ← storesLast_iff]
  constructor
  · intro hall
    refine ⟨fun key => (hall key).2, ?_⟩
    intro key
    rw [← h, ← (hall key).1]
    exact (hall key).2
  · rintro ⟨h₁, h₂⟩ key
    refine ⟨?_, h₁ key⟩
    rw [h₁ key, h₂ key, h]

/-! ## One second, written twice -/

/-- The row of a quiet second, with its halves and the samples behind its correlation. -/
def quietRow (opi : Option PairInput) (samples : ℤ) : Bars1sPair :=
  buildBarWithContext pmSecond.key ⟨some pmSecond, opi⟩ noContext.ctx
    { noContext.stats with corrSamples5m := samples } true

/-- With the same sample count the later row is stored, in one batch or in two. -/
theorem batching_independent_iff_same :
    writeAll (fun _ => none) [[quietRow none 5, quietRow (some opiSecond) 5]] pmSecond.key =
        some (quietRow (some opiSecond) 5) ∧
      writeAll (fun _ => none) [[quietRow none 5], [quietRow (some opiSecond) 5]] pmSecond.key =
        some (quietRow (some opiSecond) 5) := by
  have hkeeps : ∀ batches : List (List Bars1sPair),
      (∀ batch ∈ batches, ∀ row ∈ batch, row.rollingCorrSamples5m = some 5) →
        KeepsSamples (fun _ => none) batches := by
    intro batches hall key first last hfirst hlast
    obtain ⟨batch, hbatch, hrow⟩ := List.exists_of_findSome?_eq_some hfirst
    obtain ⟨batch', hbatch', hrow'⟩ := List.mem_flatten.mp (mem_of_lastRow hlast)
    rw [hall batch hbatch first (mem_of_lastRow hrow), hall batch' hbatch' last hrow']
  have hcut : [[quietRow none 5, quietRow (some opiSecond) 5]].flatten =
      [[quietRow none 5], [quietRow (some opiSecond) 5]].flatten := rfl
  have hall := (batching_independent_iff (fun _ => none) hcut).mpr
    ⟨hkeeps _ (by decide +kernel), hkeeps _ (by decide +kernel)⟩ pmSecond.key
  have hlast : lastRow Bars1sPair.key pmSecond.key
      [[quietRow none 5, quietRow (some opiSecond) 5]].flatten =
        some (quietRow (some opiSecond) 5) := by
    decide +kernel
  rw [hlast] at hall
  exact ⟨hall.2, hall.1.symm.trans hall.2⟩

/-- A late half makes the second row of a key, with one sample more.  In one batch with the
first row its sample count is stored, in a batch of its own it is lost. -/
theorem sample_count_depends_on_batches :
    writeAll (fun _ => none) [[quietRow none 5, quietRow (some opiSecond) 6]] pmSecond.key ≠
      writeAll (fun _ => none) [[quietRow none 5], [quietRow (some opiSecond) 6]] pmSecond.key := by
  decide +kernel

end AlphaMonitor.Pair
