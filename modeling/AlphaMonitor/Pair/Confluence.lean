import AlphaMonitor.Pair.Aggregator

/-!
# Arrival order and the stored rows

Two runs that deliver the same bars of each token may interleave the tokens,
the ticks, the worker and the writer differently.  The rows they store agree on
the raw columns when no bar arrives for a second that has been flushed already;
a bar that does arrive late starts a fresh bucket, and the row of that bucket
overwrites the half stored before.
-/

namespace AlphaMonitor.Pair

open AlphaMonitor.Lib

/-! ## What has arrived -/

/-- The token bars among the events, in order. -/
def arrivals (es : List AggEvent) : List PairInput :=
  es.filterMap fun
    | .tokenBar input _ => some input
    | _ => none

/-- The bars of one token: the pair, the side and the venue name it. -/
def tokenStream (pairId : ℤ) (side : TokenSide) (venue : Venue) (inputs : List PairInput) :
    List PairInput :=
  inputs.filter fun v => v.pairId = pairId ∧ v.tokenSide = side ∧ v.venue = venue

/-- Both event lists deliver each token's bars in the same order. -/
def SameStreams (es₁ es₂ : List AggEvent) : Prop :=
  ∀ pairId side venue, tokenStream pairId side venue (arrivals es₁) =
    tokenStream pairId side venue (arrivals es₂)

/-- The last half of each venue among the arrivals of a key. -/
def halves (inputs : List PairInput) (key : BarKey) : PairBucket where
  pm := lastRow PairInput.key key (inputs.filter fun v => v.venue = .polymarket)
  opi := lastRow PairInput.key key (inputs.filter fun v => v.venue = .opinion)

/-- The raw columns that the halves of a key should leave in the table. -/
def storedHalves (bucket : PairBucket) : Option RawColumns :=
  if bucket = PairBucket.empty then none else some (rawColumns bucket.pm bucket.opi)

/-- All buckets are flushed and all rows are written. -/
def Settled (s : AggSystem) : Prop :=
  s.agg.buckets.entries = [] ∧ s.drained = [] ∧ s.built = none ∧ s.dbQueue = []

instance (s : AggSystem) : Decidable (Settled s) :=
  inferInstanceAs (Decidable (_ ∧ _))

/-- The order in which tokens are interleaved does not show in the raw columns. -/
def RowsConfluent (captureEnabled : Bool) (lateArrivalBufferS : ℤ)
    (admissible : List AggEvent → Prop) : Prop :=
  ∀ es₁ es₂ s₁ s₂,
    (aggMachine captureEnabled lateArrivalBufferS).run (AggSystem.start lateArrivalBufferS) es₁ =
      some s₁ →
    (aggMachine captureEnabled lateArrivalBufferS).run (AggSystem.start lateArrivalBufferS) es₂ =
      some s₂ →
    admissible es₁ → admissible es₂ → SameStreams es₁ es₂ → Settled s₁ → Settled s₂ →
    ∀ key, (s₁.table key).map Bars1sPair.toRawColumns = (s₂.table key).map Bars1sPair.toRawColumns

/-- No token bar arrives for a second that has been flushed already. -/
def NoLateHalf (s : AggSystem) : AggEvent → Prop
  | .tokenBar input _ => input.key ∉ s.flushed.map Bars1sPair.key
  | _ => True

instance (s : AggSystem) : ∀ e, Decidable (NoLateHalf s e)
  | .tokenBar input _ => inferInstanceAs (Decidable (input.key ∉ _))
  | .tick .. | .drain _ | .build _ | .send | .write _ => inferInstanceAs (Decidable True)

/-! ## Halves -/

theorem lastRow_filter (p : PairInput → Bool) (key : BarKey) (inputs : List PairInput) :
    lastRow PairInput.key key (inputs.filter p) =
      inputs.reverse.find? (fun v => p v && decide (v.key = key)) := by
  simp [lastRow, findRow, ← List.filter_reverse, List.find?_filter]

/-- The halves of a key are decided by the two token streams of its pair side. -/
theorem halves_eq_of_sameStreams {es₁ es₂ : List AggEvent} (h : SameStreams es₁ es₂)
    (key : BarKey) : halves (arrivals es₁) key = halves (arrivals es₂) key := by
  have hside : ∀ (inputs : List PairInput) (venue : Venue),
      lastRow PairInput.key key (inputs.filter fun v => v.venue = venue) =
        lastRow PairInput.key key (tokenStream key.1 key.2.1 venue inputs) := by
    intro inputs venue
    rw [tokenStream, lastRow_filter, lastRow_filter]
    congr 1
    funext v
    by_cases hk : v.key = key
    · subst hk
      simp [PairInput.key]
    · simp [hk]
  simp only [halves, hside, h key.1 key.2.1]

/-- Filling a bucket with the next arrival gives the halves of the longer list. -/
theorem halves_append_key (inputs : List PairInput) (input : PairInput) :
    halves (inputs ++ [input]) input.key = (halves inputs input.key).fill input := by
  cases hv : input.venue <;>
    simp [halves, PairBucket.fill, hv, List.filter_append, lastRow_append_singleton]

theorem halves_append_of_ne (inputs : List PairInput) (input : PairInput) {key : BarKey}
    (hk : input.key ≠ key) : halves (inputs ++ [input]) key = halves inputs key := by
  cases hv : input.venue <;>
    simp [halves, hv, List.filter_append, lastRow_append_singleton, hk]

theorem fill_ne_empty (bucket : PairBucket) (input : PairInput) :
    bucket.fill input ≠ PairBucket.empty := by
  cases hv : input.venue <;> simp [PairBucket.fill, PairBucket.empty, hv]

@[simp] theorem arrivals_append (es₁ es₂ : List AggEvent) :
    arrivals (es₁ ++ es₂) = arrivals es₁ ++ arrivals es₂ := by
  simp [arrivals]

/-! ## Frame of the flush functions -/

theorem flushKeys_buckets (opiReady : Bool) (keys : List BarKey) (clock processed : ℕ)
    (st : AggState) :
    (AggState.flushKeys opiReady keys clock processed st).2.2.2.buckets = st.buckets := by
  induction keys generalizing clock processed st with
  | nil => rfl
  | cons key rest ih =>
    unfold AggState.flushKeys
    split
    · rfl
    · cases clock with
      | zero => rfl
      | succ clock =>
        simp only
        split
        · exact ih _ _ _
        · split
          · exact ih _ _ _
          · split
            · exact ih _ _ _
            · exact ih _ _ _

theorem flushStaleLoop_buckets (opiReady : Bool) (cutoff : ℤ) (turns clock processed : ℕ)
    (st : AggState) :
    (AggState.flushStaleLoop opiReady cutoff turns clock processed st).buckets = st.buckets := by
  induction turns generalizing clock processed st with
  | zero => rfl
  | succ turns ih =>
    unfold AggState.flushStaleLoop
    split
    · rfl
    · split
      · rfl
      · split
        · rfl
        · simp only
          rw [ih]
          exact flushKeys_buckets _ _ _ _ _

@[simp] theorem handleTick_buckets (st : AggState) (barSecond : ℤ) (opiReady : Bool) (clock : ℕ) :
    (st.handleTick barSecond opiReady clock).buckets = st.buckets := by
  unfold AggState.handleTick AggState.flushStale
  split
  · rfl
  · exact flushStaleLoop_buckets _ _ _ _ _ _

theorem drainLoop_buckets (clock processed : ℕ) (acc : List BarKey) (st : AggState) :
    (AggState.drainLoop clock processed acc st).2.buckets = st.buckets := by
  induction clock generalizing processed acc st with
  | zero => rfl
  | succ clock ih =>
    unfold AggState.drainLoop
    split
    · rfl
    · split
      · rfl
      · split
        · exact ih _ _ _
        · exact ih _ _ _

@[simp] theorem drainFlushQueue_buckets (st : AggState) (clock : ℕ) :
    (st.drainFlushQueue clock).2.buckets = st.buckets :=
  drainLoop_buckets _ _ _ _

@[simp] theorem recordArrival_buckets (st : AggState) (input : PairInput) :
    (st.recordArrival input).buckets = st.buckets := by
  cases hv : input.venue <;> simp [AggState.recordArrival, hv]

/-- What a token bar does to the buckets. -/
theorem handleTokenBar_cases (st : AggState) (input : PairInput) :
    let bucket := ((st.buckets.lookup input.key).getD PairBucket.empty).fill input
    ((st.handleTokenBar input).2 = some bucket ∧
      (st.handleTokenBar input).1.buckets = st.buckets.erase input.key) ∨
    ((st.handleTokenBar input).2 = none ∧
      (st.handleTokenBar input).1.buckets = st.buckets.insert input.key bucket) := by
  simp only [AggState.handleTokenBar, recordArrival_buckets]
  split
  · exact Or.inl ⟨rfl, rfl⟩
  · exact Or.inr ⟨rfl, rfl⟩

/-! ## The invariant -/

/-- A bucket holds the halves that have arrived; a key without a bucket has left
its halves in the last row flushed for it. -/
def KeyInv (inputs : List PairInput) (s : AggSystem) (key : BarKey) : Prop :=
  match s.agg.buckets.lookup key with
  | some bucket =>
    bucket = halves inputs key ∧ bucket ≠ PairBucket.empty ∧
      key ∉ s.flushed.map Bars1sPair.key
  | none =>
    (lastRow Bars1sPair.key key s.flushed).map Bars1sPair.toRawColumns =
      storedHalves (halves inputs key)

/-- The rows on their way and the table together hold the last row flushed; with
capture disabled there are no such rows. -/
def WriteInv (captureEnabled : Bool) (s : AggSystem) : Prop :=
  (∀ bar, s.built = some bar → bar.key ∈ s.flushed.map Bars1sPair.key) ∧
    if captureEnabled then
      ∀ key, ((lastRow Bars1sPair.key key s.built.toList).or
          ((lastRow Bars1sPair.key key s.dbQueue).or (s.table key))).map Bars1sPair.toRawColumns =
        (lastRow Bars1sPair.key key s.flushed).map Bars1sPair.toRawColumns
    else s.dbQueue = [] ∧ ∀ key, s.table key = none

def AggInv (captureEnabled : Bool) (hist : List AggEvent) (s : AggSystem) : Prop :=
  (∀ key, KeyInv (arrivals hist) s key) ∧ WriteInv captureEnabled s

theorem aggInv_start (captureEnabled : Bool) (lateArrivalBufferS : ℤ) :
    AggInv captureEnabled [] (AggSystem.start lateArrivalBufferS) := by
  refine ⟨fun key => ?_, ?_, ?_⟩
  · simp [KeyInv, AggSystem.start, AggState.start, storedHalves, halves, arrivals,
      PairBucket.empty]
  · intro bar hbar
    cases hbar
  · cases captureEnabled <;> simp [AggSystem.start]

/-- Rows written in one batch leave the same last row for every key. -/
theorem writePairBars_map_raw (table : PairTable) (staged : List Bars1sPair) (key : BarKey) :
    (writePairBars table staged key).map Bars1sPair.toRawColumns =
      ((lastRow Bars1sPair.key key staged).or (table key)).map Bars1sPair.toRawColumns := by
  rw [writePairBars, foldl_upsertRows, flatten_toChunks]
  have hproj : ∀ old new, (onConflict old new).toRawColumns = new.toRawColumns := fun _ _ => rfl
  exact upsertRows_dedupe_map _ hproj table staged key

theorem keyInv_congr {inputs : List PairInput} {s s' : AggSystem} {key : BarKey}
    (hb : s'.agg.buckets.lookup key = s.agg.buckets.lookup key) (hf : s'.flushed = s.flushed)
    (h : KeyInv inputs s key) : KeyInv inputs s' key := by
  unfold KeyInv at h ⊢
  rw [hb, hf]
  exact h

/-! ### Keys and buckets -/

/-- Flushing the bucket of a key, when it holds the key's halves. -/
theorem keyInv_flush {inputs : List PairInput} {s s' : AggSystem} (bar : Bars1sPair)
    (bucket : PairBucket) (hb : s'.agg.buckets = s.agg.buckets.erase bar.key)
    (hf : s'.flushed = s.flushed ++ [bar]) (hraw : bar.toRawColumns = rawColumns bucket.pm bucket.opi)
    (hhalves : bucket = halves inputs bar.key) (hne : bucket ≠ PairBucket.empty)
    (hother : ∀ key, key ≠ bar.key → KeyInv inputs s key) (key : BarKey) :
    KeyInv inputs s' key := by
  by_cases hk : key = bar.key
  · subst hk
    unfold KeyInv
    rw [hb, AList.lookup_erase, hf, lastRow_append_singleton, if_pos rfl]
    simp only [Option.map_some, hraw, storedHalves]
    rw [← hhalves, if_neg hne]
  · have h := hother key hk
    have hk' : bar.key ≠ key := fun h => hk h.symm
    unfold KeyInv at h ⊢
    rw [hb, AList.lookup_erase_ne hk, hf, lastRow_append_singleton, if_neg hk']
    cases hl : s.agg.buckets.lookup key with
    | none =>
      rw [hl] at h
      exact h
    | some b =>
      rw [hl] at h
      refine ⟨h.1, h.2.1, ?_⟩
      rw [List.map_append, List.mem_append]
      rintro (hmem | hmem)
      · exact h.2.2 hmem
      · exact hk (by simpa using hmem)

/-- Storing the bucket of a key that has not been flushed. -/
theorem keyInv_insert {inputs : List PairInput} {s s' : AggSystem} {k : BarKey}
    {bucket : PairBucket} (hb : s'.agg.buckets = s.agg.buckets.insert k bucket)
    (hf : s'.flushed = s.flushed) (hhalves : bucket = halves inputs k)
    (hne : bucket ≠ PairBucket.empty) (hfresh : k ∉ s.flushed.map Bars1sPair.key)
    (hother : ∀ key, key ≠ k → KeyInv inputs s key) (key : BarKey) : KeyInv inputs s' key := by
  by_cases hk : key = k
  · subst hk
    unfold KeyInv
    rw [hb, AList.lookup_insert, hf]
    exact ⟨hhalves, hne, hfresh⟩
  · refine keyInv_congr ?_ hf (hother key hk)
    rw [hb, AList.lookup_insert_ne hk]

/-- The bucket of a key that has not been flushed, or the empty one, holds the
key's halves. -/
theorem bucket_eq_halves {inputs : List PairInput} {s : AggSystem} {key : BarKey}
    (h : KeyInv inputs s key) (hfresh : key ∉ s.flushed.map Bars1sPair.key) :
    (s.agg.buckets.lookup key).getD PairBucket.empty = halves inputs key := by
  unfold KeyInv at h
  cases hl : s.agg.buckets.lookup key with
  | some bucket =>
    rw [hl] at h
    exact h.1
  | none =>
    rw [hl] at h
    have hnone : lastRow Bars1sPair.key key s.flushed = none :=
      findRow_eq_none _ (by simpa using hfresh)
    rw [hnone] at h
    by_cases he : halves inputs key = PairBucket.empty
    · exact he.symm
    · simp [storedHalves, he] at h

/-! ### Rows on their way -/

/-- A row sent at once, for a key flushed for the first time. -/
theorem writeInv_ready {captureEnabled : Bool} {s : AggSystem} {agg : AggState} {bar : Bars1sPair}
    (hfresh : bar.key ∉ s.flushed.map Bars1sPair.key) (h : WriteInv captureEnabled s) :
    WriteInv captureEnabled { s with
      agg := agg
      dbQueue := if captureEnabled then s.dbQueue ++ [bar] else s.dbQueue
      flushed := s.flushed ++ [bar] } := by
  obtain ⟨hbuilt, hrows⟩ := h
  refine ⟨fun b hb => ?_, ?_⟩
  · rw [List.map_append]
    exact List.mem_append_left _ (hbuilt b hb)
  · cases captureEnabled with
    | false => exact hrows
    | true =>
      intro key
      have hrow := hrows key
      simp only [if_true, lastRow_append_singleton]
      by_cases hk : bar.key = key
      · -- the row in the worker's hand belongs to another key
        have hnone : lastRow Bars1sPair.key key s.built.toList = none := by
          cases hb : s.built with
          | none => rfl
          | some b =>
            have hne : b.key ≠ key := fun h => hfresh (hk ▸ h ▸ hbuilt b hb)
            simp [lastRow_cons, hne]
        simp [hk, hnone]
      · simpa [hk] using hrow

/-- A row built by the worker and kept in its hand. -/
theorem writeInv_build {captureEnabled : Bool} {s : AggSystem} {agg : AggState} {bar : Bars1sPair}
    {rest : List BarKey} (hnone : s.built = none) (h : WriteInv captureEnabled s) :
    WriteInv captureEnabled { s with
      agg := agg
      drained := rest
      built := some bar
      flushed := s.flushed ++ [bar] } := by
  obtain ⟨_, hrows⟩ := h
  refine ⟨fun b hb => ?_, ?_⟩
  · cases hb
    simp
  · cases captureEnabled with
    | false => exact hrows
    | true =>
      intro key
      have hrow := hrows key
      rw [hnone] at hrow
      by_cases hk : bar.key = key
      · simp [lastRow_cons, lastRow_append_singleton, hk]
      · simpa [lastRow_cons, lastRow_append_singleton, hk] using hrow

/-- The worker sends the row in its hand. -/
theorem writeInv_send {captureEnabled : Bool} {s : AggSystem} {bar : Bars1sPair}
    (hbar : s.built = some bar) (h : WriteInv captureEnabled s) :
    WriteInv captureEnabled { s with
      built := none
      dbQueue := if captureEnabled then s.dbQueue ++ [bar] else s.dbQueue } := by
  obtain ⟨_, hrows⟩ := h
  refine ⟨fun b hb => (Option.some_ne_none b hb.symm).elim, ?_⟩
  cases captureEnabled with
  | false => exact hrows
  | true =>
    intro key
    have hrow := hrows key
    rw [hbar] at hrow
    by_cases hk : bar.key = key
    · simpa [lastRow_cons, lastRow_append_singleton, hk] using hrow
    · simpa [lastRow_cons, lastRow_append_singleton, hk] using hrow

/-- The writer commits the first `n` rows. -/
theorem writeInv_write {captureEnabled : Bool} {s : AggSystem} (n : ℕ)
    (h : WriteInv captureEnabled s) :
    WriteInv captureEnabled { s with
      dbQueue := s.dbQueue.drop n
      table := writePairBars s.table (s.dbQueue.take n) } := by
  obtain ⟨hbuilt, hrows⟩ := h
  refine ⟨hbuilt, ?_⟩
  cases captureEnabled with
  | false =>
    obtain ⟨hqueue, htable⟩ := hrows
    refine ⟨by simp [hqueue], fun key => ?_⟩
    have hraw := writePairBars_map_raw s.table (s.dbQueue.take n) key
    simpa [hqueue, htable key] using hraw
  | true =>
    intro key
    rw [← hrows key]
    have hraw := writePairBars_map_raw s.table (s.dbQueue.take n) key
    have hsplit : lastRow Bars1sPair.key key s.dbQueue =
        (lastRow Bars1sPair.key key (s.dbQueue.drop n)).or
          (lastRow Bars1sPair.key key (s.dbQueue.take n)) := by
      rw [← lastRow_append, List.take_append_drop]
    simp only [Option.map_or, hraw, hsplit, Option.or_assoc]

/-! ### Every step -/

/-- A token bar for a key that has not been flushed keeps the invariant. -/
theorem aggInv_tokenBar {captureEnabled : Bool} {hist : List AggEvent} {s s' : AggSystem}
    {input : PairInput} {env : BuildInputs} (hi : AggInv captureEnabled hist s)
    (hfresh : input.key ∉ s.flushed.map Bars1sPair.key)
    (hs : s.step captureEnabled (.tokenBar input env) = some s') :
    AggInv captureEnabled (hist ++ [.tokenBar input env]) s' := by
  obtain ⟨hkeys, hwrite⟩ := hi
  have harr : arrivals (hist ++ [.tokenBar input env]) = arrivals hist ++ [input] := by
    simp [arrivals]
  have hother : ∀ key, key ≠ input.key → KeyInv (arrivals hist ++ [input]) s key := by
    intro key hk
    have h := hkeys key
    unfold KeyInv at h ⊢
    rw [halves_append_of_ne _ _ (fun h => hk h.symm)]
    exact h
  have hhalves : ((s.agg.buckets.lookup input.key).getD PairBucket.empty).fill input =
      halves (arrivals hist ++ [input]) input.key := by
    rw [bucket_eq_halves (hkeys input.key) hfresh, halves_append_key]
  have hne := fill_ne_empty ((s.agg.buckets.lookup input.key).getD PairBucket.empty) input
  unfold AggInv
  rw [harr]
  rcases handleTokenBar_cases s.agg input with ⟨hready, hbuckets⟩ | ⟨hready, hbuckets⟩
  · simp only [AggSystem.step, hready, Option.some.injEq] at hs
    subst hs
    refine ⟨keyInv_flush (buildBarWithContext input.key _ env.ctx env.stats env.opiReady) _
      hbuckets rfl rfl hhalves hne hother, ?_⟩
    exact writeInv_ready hfresh hwrite
  · simp only [AggSystem.step, hready, Option.some.injEq] at hs
    subst hs
    exact ⟨keyInv_insert hbuckets rfl hhalves hne hfresh hother, hwrite⟩

/-- The worker's key, when it still has a bucket, is flushed with its halves. -/
theorem aggInv_build {captureEnabled : Bool} {hist : List AggEvent} {s s' : AggSystem}
    {env : BuildInputs} (hi : AggInv captureEnabled hist s)
    (hs : s.step captureEnabled (.build env) = some s') :
    AggInv captureEnabled (hist ++ [.build env]) s' := by
  obtain ⟨hkeys, hwrite⟩ := hi
  have harr : arrivals (hist ++ [.build env]) = arrivals hist := by simp [arrivals]
  unfold AggInv
  rw [harr]
  simp only [AggSystem.step] at hs
  split at hs
  · rename_i key rest hdrained hbuilt
    cases hl : s.agg.buckets.lookup key with
    | none =>
      rw [hl] at hs
      cases hs
      exact ⟨fun key => keyInv_congr rfl rfl (hkeys key), hwrite⟩
    | some bucket =>
      rw [hl] at hs
      cases hs
      have hkey := hkeys key
      unfold KeyInv at hkey
      rw [hl] at hkey
      obtain ⟨hhalves, hne, -⟩ := hkey
      refine ⟨keyInv_flush (buildBarWithContext key bucket env.ctx env.stats env.opiReady) bucket
        rfl rfl rfl hhalves hne (fun key _ => hkeys key), ?_⟩
      exact writeInv_build hbuilt hwrite
  · cases hs

theorem aggInv_step (captureEnabled : Bool) (lateArrivalBufferS : ℤ) (hist : List AggEvent)
    (s : AggSystem) (e : AggEvent) (s' : AggSystem) (hi : AggInv captureEnabled hist s)
    (hg : NoLateHalf s e) (hs : (aggMachine captureEnabled lateArrivalBufferS).step s e = some s') :
    AggInv captureEnabled (hist ++ [e]) s' := by
  change s.step captureEnabled e = some s' at hs
  have hkeep : arrivals (hist ++ [e]) = arrivals hist → ∀ t : AggSystem,
      t.agg.buckets = s.agg.buckets → t.flushed = s.flushed →
        WriteInv captureEnabled t → AggInv captureEnabled (hist ++ [e]) t := by
    intro harr t hb hf hw
    unfold AggInv
    rw [harr]
    exact ⟨fun key => keyInv_congr (by rw [hb]) hf (hi.1 key), hw⟩
  cases e with
  | tokenBar input env => exact aggInv_tokenBar hi hg hs
  | tick barSecond opiReady clock =>
    cases hs
    exact hkeep (by simp [arrivals]) _ (handleTick_buckets ..) rfl hi.2
  | drain clock =>
    simp only [AggSystem.step] at hs
    split at hs
    · cases hs
      exact hkeep (by simp [arrivals]) _ (drainFlushQueue_buckets ..) rfl hi.2
    · cases hs
  | build env => exact aggInv_build hi hs
  | send =>
    simp only [AggSystem.step] at hs
    split at hs
    · rename_i bar hbar
      cases hs
      exact hkeep (by simp [arrivals]) _ rfl rfl (writeInv_send hbar hi.2)
    · cases hs
  | write n =>
    simp only [AggSystem.step] at hs
    split at hs
    · cases hs
      exact hkeep (by simp [arrivals]) _ rfl rfl (writeInv_write n hi.2)
    · cases hs

/-! ## The stored rows -/

/-- The raw columns that a settled run has stored, computed from its arrivals. -/
theorem stored_of_settled {captureEnabled : Bool} {hist : List AggEvent} {s : AggSystem}
    (hi : AggInv captureEnabled hist s) (hsettled : Settled s) (key : BarKey) :
    (s.table key).map Bars1sPair.toRawColumns =
      if captureEnabled then storedHalves (halves (arrivals hist) key) else none := by
  obtain ⟨hbuckets, -, hbuilt, hqueue⟩ := hsettled
  obtain ⟨hkeys, -, hrows⟩ := hi
  have hempty : s.agg.buckets.lookup key = none := by
    rw [AList.lookup_eq_none, AList.mem_keys, AList.keys, hbuckets]
    simp
  have hkey := hkeys key
  unfold KeyInv at hkey
  rw [hempty] at hkey
  cases captureEnabled with
  | false => simp [hrows.2 key]
  | true =>
    have hrow := hrows key
    rw [hbuilt, hqueue] at hrow
    simpa [hkey] using hrow

/-- Two settled runs that deliver the same token streams, in any interleaving,
store the same raw columns if no bar arrives for a second that its run has
already flushed. -/
theorem rowsConfluent_of_noLateHalf (captureEnabled : Bool) (lateArrivalBufferS : ℤ) :
    RowsConfluent captureEnabled lateArrivalBufferS
      ((aggMachine captureEnabled lateArrivalBufferS).RunMeets NoLateHalf
        (AggSystem.start lateArrivalBufferS)) := by
  intro es₁ es₂ s₁ s₂ hr₁ hr₂ hg₁ hg₂ hsame hset₁ hset₂ key
  have hstart := aggInv_start captureEnabled lateArrivalBufferS
  have hi₁ := Machine.hist_of_runMeets _ (aggInv_step captureEnabled lateArrivalBufferS)
    hstart hg₁ hr₁
  have hi₂ := Machine.hist_of_runMeets _ (aggInv_step captureEnabled lateArrivalBufferS)
    hstart hg₂ hr₂
  rw [stored_of_settled hi₁ hset₁, stored_of_settled hi₂ hset₂, List.nil_append,
    List.nil_append, halves_eq_of_sameStreams hsame]

/-! ### One second of one pair -/

/-- A quiet second of a token: a bid, an ask and nothing traded. -/
def quietSecond (venue : Venue) (tokenKey : String) (bid ask : ℚ) : PairInput where
  pairId := 7
  tokenSide := .yes
  barSecond := 100
  venue := venue
  tokenKey := tokenKey
  bestBid := some bid
  bestAsk := some ask
  mid := some ((bid + ask) / 2)
  bestBidState := some bid
  bestAskState := some ask
  midState := some ((bid + ask) / 2)
  lastPrice := none
  micro := none
  stalenessMs := some 0
  barGapFlag := false
  barStaleFlag := false
  top10DepthBid := none
  top10DepthAsk := none
  bidL1Notional := none
  bidL2Notional := none
  bidL3Notional := none
  askL1Notional := none
  askL2Notional := none
  askL3Notional := none
  buyNotional1s := 0
  sellNotional1s := 0
  ofi250ms := 0
  bidDeltaNotional250ms := 0
  askDeltaNotional250ms := 0
  midSlope250ms := none
  buyNotional250ms := 0
  sellNotional250ms := 0
  maxTradeNotional250ms := 0
  maxTradeNotional1s := 0
  liquidityPullFlag := 0
  obsLatencyP99Ms := none

def pmSecond : PairInput := quietSecond .polymarket "pm-7-yes" (2 / 5) (3 / 5)
def opiSecond : PairInput := quietSecond .opinion "opi-7-yes" (9 / 20) (11 / 20)

/-- No fees, no gas and no history. -/
def noContext : BuildInputs :=
  ⟨⟨0, 0, none, 0⟩, ⟨none, none, none, none, 0, none, none, none⟩, true⟩

/-- Both halves arrive before any tick. -/
def onTimeRun : List AggEvent :=
  [.tokenBar pmSecond noContext, .tokenBar opiSecond noContext, .write 1]

/-- The same with the Opinion half first. -/
def swappedRun : List AggEvent :=
  [.tokenBar opiSecond noContext, .tick 101 true 10, .tokenBar pmSecond noContext, .write 1]

/-- The Opinion half arrives after a tick has flushed the second. -/
def lateRun : List AggEvent :=
  [.tokenBar pmSecond noContext, .tick 110 true 10, .drain 10, .build noContext, .send,
    .tokenBar opiSecond noContext, .tick 120 true 10, .drain 10, .build noContext, .send, .write 2]

/-- What a run with a buffer of two seconds ends in. -/
def endOf (es : List AggEvent) : Option AggSystem :=
  (aggMachine true 2).run (AggSystem.start 2) es

/-- The raw columns that a run has stored for the second. -/
def storedBy (es : List AggEvent) : Option RawColumns :=
  (endOf es).bind fun s => (s.table (7, .yes, 100)).map Bars1sPair.toRawColumns

/-- The late Opinion half erases the Polymarket columns that were stored. -/
theorem not_rowsConfluent_of_late_half : ¬ RowsConfluent true 2 (fun _ => True) := by
  intro h
  have hset : (∀ s ∈ endOf onTimeRun, Settled s) ∧ ∀ s ∈ endOf lateRun, Settled s := by
    decide +kernel
  have hdiff : storedBy onTimeRun ≠ storedBy lateRun := by decide +kernel
  obtain ⟨s₁, h₁⟩ : ∃ s, endOf onTimeRun = some s :=
    Option.isSome_iff_exists.mp (by decide +kernel)
  obtain ⟨s₂, h₂⟩ : ∃ s, endOf lateRun = some s :=
    Option.isSome_iff_exists.mp (by decide +kernel)
  have hrows := h onTimeRun lateRun s₁ s₂ h₁ h₂ trivial trivial (fun _ _ _ => rfl)
    (hset.1 s₁ h₁) (hset.2 s₂ h₂) (7, .yes, 100)
  simp only [storedBy, h₁, h₂, Option.bind_some] at hdiff
  exact hdiff hrows

/-- Whichever half comes first, the stored raw columns are the same. -/
theorem rowsConfluent_halves_swapped : storedBy onTimeRun = storedBy swappedRun := by
  have hset : (∀ s ∈ endOf onTimeRun, Settled s) ∧ ∀ s ∈ endOf swappedRun, Settled s := by
    decide +kernel
  have hsame : SameStreams onTimeRun swappedRun := by
    intro pairId side venue
    cases venue <;> simp [arrivals, tokenStream, onTimeRun, swappedRun, pmSecond, opiSecond,
      quietSecond, List.filter_cons]
  obtain ⟨s₁, h₁⟩ : ∃ s, endOf onTimeRun = some s :=
    Option.isSome_iff_exists.mp (by decide +kernel)
  obtain ⟨s₂, h₂⟩ : ∃ s, endOf swappedRun = some s :=
    Option.isSome_iff_exists.mp (by decide +kernel)
  have hrows := rowsConfluent_of_noLateHalf true 2 onTimeRun swappedRun s₁ s₂ h₁ h₂
    (by decide +kernel) (by decide +kernel) hsame (hset.1 s₁ h₁) (hset.2 s₂ h₂) (7, .yes, 100)
  simp only [storedBy, h₁, h₂, Option.bind_some]
  exact hrows

end AlphaMonitor.Pair
