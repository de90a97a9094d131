import AlphaMonitor.Lib.TimeIndex
import AlphaMonitor.Pair.FlushStale

/-!
# Where a bucket is

Four containers know of a bucket: the index, the set of pending keys, the flush queue and
the list that the worker has drained.  The arrival of a bar, the stale scan and the worker
change them at different times.

## Main definitions

- `BucketInv`: every bucket is known somewhere
- `Traced`: the system with a number for every bucket that is ever created

## Main results

- `buckets_conserved`: no bucket is lost or built twice
- `queue_keeps_completed_key`: the flush queue may hold a key that is not pending any more
-/

namespace AlphaMonitor.Pair

open AlphaMonitor.Lib

variable {st : AggState} {opiReady : Bool}

/-! ## The index -/

/-- The key stands in the index. -/
def Indexed (index : List (ℤ × List BarKey)) (key : BarKey) : Prop :=
  ∃ entry ∈ index, key ∈ entry.2

/-- The index of the aggregator is an index by time. -/
theorem indexPush_eq_pushAt (second : ℤ) (key : BarKey) (index : List (ℤ × List BarKey)) :
    indexPush second key index = pushAt second key index := by
  induction index with
  | nil => rfl
  | cons entry rest ih =>
    unfold indexPush pushAt
    rw [ih]

theorem indexWf_iff {index : List (ℤ × List BarKey)} :
    IndexWf index ↔ InTimeOrder (fun key : BarKey => key.2.2) index :=
  ⟨fun h => ⟨h.sorted, h.filed⟩, fun h => ⟨h.sorted, h.filed⟩⟩

theorem indexWf_push {index : List (ℤ × List BarKey)} (h : IndexWf index) (key : BarKey) :
    IndexWf (indexPush key.2.2 key index) := by
  rw [indexPush_eq_pushAt]
  exact indexWf_iff.mpr ((indexWf_iff.mp h).pushAt key)

theorem indexed_iff {index : List (ℤ × List BarKey)} {key : BarKey} :
    Indexed index key ↔ key ∈ itemsOf index :=
  List.mem_flatMap.symm

theorem indexed_push (second : ℤ) (key : BarKey) (index : List (ℤ × List BarKey)) :
    Indexed (indexPush second key index) key ∧
      ∀ k, Indexed index k → Indexed (indexPush second key index) k := by
  rw [indexPush_eq_pushAt]
  refine ⟨indexed_iff.mpr (mem_itemsOf_pushAt.mpr (Or.inl rfl)), fun k hk => ?_⟩
  exact indexed_iff.mpr (mem_itemsOf_pushAt.mpr (Or.inr (indexed_iff.mp hk)))

/-! ## The stale scan -/

/-- Only the queue and the set of pending keys have changed, and both have grown by the
same keys. -/
structure Queues (st st' : AggState) : Prop where
  buckets : st'.buckets = st.buckets
  kept : st.flushPendingKeys ⊆ st'.flushPendingKeys
  queue : ∀ key ∈ st.flushQueue, key ∈ st'.flushQueue
  new : ∀ key ∈ st'.flushPendingKeys, key ∈ st.flushPendingKeys ∨ key ∈ st'.flushQueue

theorem Queues.refl (st : AggState) : Queues st st :=
  ⟨rfl, Finset.Subset.refl _, fun _ h => h, fun _ h => Or.inl h⟩

theorem Queues.trans {st₁ st₂ st₃ : AggState} (h : Queues st₁ st₂) (h' : Queues st₂ st₃) :
    Queues st₁ st₃ where
  buckets := h'.buckets.trans h.buckets
  kept := h.kept.trans h'.kept
  queue key hkey := h'.queue key (h.queue key hkey)
  new key hkey := by
    rcases h'.new key hkey with hkey | hkey
    · exact (h.new key hkey).imp_right (h'.queue key)
    · exact Or.inr hkey

theorem Queues.one (st : AggState) (key : BarKey) : Queues st
    { st with
      flushQueue := st.flushQueue ++ [key]
      flushPendingKeys := insert key st.flushPendingKeys } where
  buckets := rfl
  kept := Finset.subset_insert _ _
  queue _ hkey := List.mem_append_left _ hkey
  new _ hkey := (Finset.mem_insert.mp hkey).symm.imp_right fun h =>
    List.mem_append_right _ (List.mem_singleton.mpr h)

/-- A key with a bucket leaves the inner loop in the index or pending. -/
theorem flushKeys_queues (opiReady : Bool) (keys : List BarKey) (clock processed : ℕ)
    (st : AggState) {remaining : List BarKey} {clock' processed' : ℕ} {st' : AggState}
    (h : st.flushKeys opiReady keys clock processed = (remaining, clock', processed', st')) :
    Queues st st' ∧ st'.bucketIndex = st.bucketIndex ∧ (∀ key ∈ remaining, key ∈ keys) ∧
      ∀ key ∈ keys, key ∈ st.buckets → key ∈ remaining ∨ key ∈ st'.flushPendingKeys := by
  induction keys generalizing clock processed st remaining clock' processed' st' with
  | nil =>
    cases h
    exact ⟨Queues.refl st, rfl, fun _ h => h, fun _ h => absurd h List.not_mem_nil⟩
  | cons key rest ih =>
    have hstop : Queues st st ∧ st.bucketIndex = st.bucketIndex ∧
        (∀ k ∈ key :: rest, k ∈ key :: rest) ∧
        ∀ k ∈ key :: rest, k ∈ st.buckets → k ∈ key :: rest ∨ k ∈ st.flushPendingKeys :=
      ⟨Queues.refl st, rfl, fun _ h => h, fun _ h _ => Or.inl h⟩
    unfold AggState.flushKeys at h
    split at h
    · cases h
      exact hstop
    · cases clock with
      | zero =>
        cases h
        exact hstop
      | succ clock =>
        simp only at h
        split at h
        · rename_i hpending
          obtain ⟨hqueues, hindex, hsub, hall⟩ := ih clock processed st h
          refine ⟨hqueues, hindex, fun k hk => List.mem_cons_of_mem _ (hsub k hk), ?_⟩
          intro k hk hbucket
          rcases List.mem_cons.mp hk with rfl | hk
          · exact Or.inr (hqueues.kept hpending)
          · exact hall k hk hbucket
        · split at h
          · rename_i hnone
            obtain ⟨hqueues, hindex, hsub, hall⟩ := ih clock processed st h
            refine ⟨hqueues, hindex, fun k hk => List.mem_cons_of_mem _ (hsub k hk), ?_⟩
            intro k hk hbucket
            rcases List.mem_cons.mp hk with rfl | hk
            · exact absurd hbucket (AList.lookup_eq_none.mp hnone)
            · exact hall k hk hbucket
          · split at h
            · obtain ⟨hqueues, hindex, hsub, hall⟩ := ih clock (processed + 1) _ h
              have hone := Queues.one st key
              refine ⟨hone.trans hqueues, hindex,
                fun k hk => List.mem_cons_of_mem _ (hsub k hk), ?_⟩
              intro k hk hbucket
              rcases List.mem_cons.mp hk with rfl | hk
              · exact Or.inr (hqueues.kept (Finset.mem_insert_self k _))
              · exact hall k hk hbucket
            · generalize hrest : st.flushKeys opiReady rest clock processed = result at h
              obtain ⟨remaining', clock'', processed'', st''⟩ := result
              cases h
              obtain ⟨hqueues, hindex, hsub, hall⟩ := ih clock processed st hrest
              refine ⟨hqueues, hindex, ?_, ?_⟩
              · intro k hk
                rcases List.mem_cons.mp hk with rfl | hk
                · exact List.mem_cons_self
                · exact List.mem_cons_of_mem _ (hsub k hk)
              · intro k hk hbucket
                rcases List.mem_cons.mp hk with rfl | hk
                · exact Or.inl List.mem_cons_self
                · exact (hall k hk hbucket).imp_left (List.mem_cons_of_mem _)

/-- The scan keeps the index in order, and keys with a bucket in the index or pending. -/
structure Scanned (st st' : AggState) : Prop where
  queues : Queues st st'
  index : IndexWf st.bucketIndex → IndexWf st'.bucketIndex
  placed : ∀ key ∈ st.buckets, Indexed st.bucketIndex key →
    Indexed st'.bucketIndex key ∨ key ∈ st'.flushPendingKeys

theorem Scanned.refl (st : AggState) : Scanned st st :=
  ⟨Queues.refl st, id, fun _ _ h => Or.inl h⟩

theorem Scanned.trans {st₁ st₂ st₃ : AggState} (h : Scanned st₁ st₂) (h' : Scanned st₂ st₃) :
    Scanned st₁ st₃ where
  queues := h.queues.trans h'.queues
  index hwf := h'.index (h.index hwf)
  placed key hbucket hindexed := by
    rcases h.placed key hbucket hindexed with hindexed | hpending
    · exact h'.placed key (by rw [h.queues.buckets]; exact hbucket) hindexed
    · exact Or.inr (h'.queues.kept hpending)

/-- One second is taken off the index and its remaining keys are put back. -/
theorem scanned_second {second : ℤ} {keys remaining : List BarKey}
    {rest : List (ℤ × List BarKey)} {st' : AggState}
    (hindex : st.bucketIndex = (second, keys) :: rest)
    (hqueues : Queues { st with bucketIndex := rest } st')
    (hsub : ∀ key ∈ remaining, key ∈ keys)
    (hall : ∀ key ∈ keys, key ∈ st.buckets → key ∈ remaining ∨ key ∈ st'.flushPendingKeys) :
    Scanned st { st' with
      bucketIndex := if remaining = [] then rest else (second, remaining) :: rest } where
  queues := ⟨hqueues.buckets, hqueues.kept, hqueues.queue, hqueues.new⟩
  index hwf := by
    rw [hindex] at hwf
    have hrest : IndexWf rest :=
      ⟨hwf.sorted.of_cons, fun entry hentry => hwf.filed entry (List.mem_cons_of_mem _ hentry)⟩
    show IndexWf (if remaining = [] then rest else (second, remaining) :: rest)
    split
    · exact hrest
    · refine ⟨List.pairwise_cons.mpr ⟨(List.pairwise_cons.mp hwf.sorted).1, hrest.sorted⟩, ?_⟩
      intro entry hentry key hkey
      rcases List.mem_cons.mp hentry with rfl | hentry
      · exact hwf.filed (second, keys) List.mem_cons_self key (hsub key hkey)
      · exact hrest.filed entry hentry key hkey
  placed key hbucket hindexed := by
    obtain ⟨entry, hentry, hkey⟩ := hindexed
    rw [hindex] at hentry
    show Indexed (if remaining = [] then rest else (second, remaining) :: rest) key ∨
      key ∈ st'.flushPendingKeys
    rcases List.mem_cons.mp hentry with rfl | hentry
    · refine (hall key hkey hbucket).imp_left fun hremaining => ?_
      rw [if_neg (List.ne_nil_of_mem hremaining)]
      exact ⟨_, List.mem_cons_self, hremaining⟩
    · left
      split
      · exact ⟨entry, hentry, hkey⟩
      · exact ⟨entry, List.mem_cons_of_mem _ hentry, hkey⟩

theorem flushStaleLoop_scanned (opiReady : Bool) (cutoff : ℤ) (turns clock processed : ℕ)
    (st : AggState) : Scanned st (st.flushStaleLoop opiReady cutoff turns clock processed) := by
  induction turns generalizing clock processed st with
  | zero => exact Scanned.refl st
  | succ turns ih =>
    unfold AggState.flushStaleLoop
    split
    · exact Scanned.refl st
    · split
      · exact Scanned.refl st
      · rename_i second keys rest hindex
        split
        · exact Scanned.refl st
        · generalize hkeys : AggState.flushKeys opiReady keys (clock - 1) processed
            { st with bucketIndex := rest } = result
          obtain ⟨remaining, clock', processed', st'⟩ := result
          obtain ⟨hqueues, -, hsub, hall⟩ := flushKeys_queues opiReady keys _ _ _ hkeys
          exact (scanned_second hindex hqueues hsub hall).trans (ih _ _ _)

theorem handleTick_scanned (st : AggState) (barSecond : ℤ) (opiReady : Bool) (clock : ℕ) :
    Scanned st (st.handleTick barSecond opiReady clock) := by
  have htick : Scanned st { st with currentTick := barSecond } :=
    ⟨⟨rfl, Finset.Subset.refl _, fun _ h => h, fun _ h => Or.inl h⟩, id, fun _ _ h => Or.inl h⟩
  apply htick.trans
  unfold AggState.handleTick AggState.flushStale
  split
  · exact Scanned.refl _
  · exact flushStaleLoop_scanned _ _ _ _ _ _

/-! ## The worker -/

/-- What the worker takes from the queue was pending and is not any more. -/
structure Drains (st : AggState) (keys : List BarKey) (st' : AggState) : Prop where
  buckets : st'.buckets = st.buckets
  index : st'.bucketIndex = st.bucketIndex
  taken : ∀ key ∈ keys, key ∈ st.flushPendingKeys
  pending : ∀ key ∈ st.flushPendingKeys, key ∈ keys ∨ key ∈ st'.flushPendingKeys
  /-- Entries of the queue that are not pending are dropped. -/
  queue : (∀ key ∈ st.flushPendingKeys, key ∈ st.flushQueue) →
    ∀ key ∈ st'.flushPendingKeys, key ∈ st'.flushQueue
  kept : st'.flushPendingKeys ⊆ st.flushPendingKeys

theorem drainLoop_drains (clock processed : ℕ) (acc : List BarKey) (st : AggState) :
    ∃ keys st', st.drainLoop clock processed acc = (acc ++ keys, st') ∧ Drains st keys st' := by
  have hstop : ∀ (acc : List BarKey) (st : AggState),
      ∃ keys st', (acc, st) = (acc ++ keys, st') ∧ Drains st keys st' := by
    intro acc st
    refine ⟨[], st, by rw [List.append_nil], rfl, rfl, ?_, fun _ h => Or.inr h, fun h => h,
      Finset.Subset.refl _⟩
    exact fun key hkey => absurd hkey List.not_mem_nil
  induction clock generalizing processed acc st with
  | zero => exact hstop acc st
  | succ clock ih =>
    unfold AggState.drainLoop
    split
    · exact hstop acc st
    · split
      · exact hstop acc st
      · rename_i key rest hqueue
        split
        · rename_i hpending
          obtain ⟨keys, st', heq, hdrains⟩ := ih (processed + 1) (acc ++ [key])
            { st with flushQueue := rest, flushPendingKeys := st.flushPendingKeys.erase key }
          refine ⟨key :: keys, st', by rw [heq, List.append_assoc]; rfl, hdrains.buckets,
            hdrains.index, ?_, ?_, ?_, ?_⟩
          · intro k hk
            rcases List.mem_cons.mp hk with rfl | hk
            · exact hpending
            · exact Finset.mem_of_mem_erase (hdrains.taken k hk)
          · intro k hk
            by_cases heq : k = key
            · exact Or.inl (heq ▸ List.mem_cons_self)
            · exact (hdrains.pending k (Finset.mem_erase.mpr ⟨heq, hk⟩)).imp_left
                (List.mem_cons_of_mem _)
          · intro hqueued
            apply hdrains.queue
            intro k hk
            have hmem := hqueued k (Finset.mem_of_mem_erase hk)
            rw [hqueue] at hmem
            exact (List.mem_cons.mp hmem).resolve_left (Finset.ne_of_mem_erase hk)
          · exact hdrains.kept.trans (Finset.erase_subset _ _)
        · rename_i hpending
          obtain ⟨keys, st', heq, hdrains⟩ := ih processed acc { st with flushQueue := rest }
          refine ⟨keys, st', heq, hdrains.buckets, hdrains.index, hdrains.taken, hdrains.pending,
            ?_, hdrains.kept⟩
          intro hqueued
          apply hdrains.queue
          intro k hk
          have hmem := hqueued k hk
          rw [hqueue] at hmem
          exact (List.mem_cons.mp hmem).resolve_left fun heq => hpending (heq ▸ hk)

theorem drainFlushQueue_drains (st : AggState) (clock : ℕ) :
    Drains st (st.drainFlushQueue clock).1 (st.drainFlushQueue clock).2 := by
  obtain ⟨keys, st', heq, hdrains⟩ := drainLoop_drains clock 0 [] st
  unfold AggState.drainFlushQueue
  rw [heq]
  exact hdrains

/-! ## Instances of buckets -/

/-- The buckets of a key are numbered from one; `present` tells which keys have a bucket now,
and `emitted` which buckets have been built. -/
structure Instances (present : BarKey → Prop) (created : BarKey → ℕ)
    (emitted : List (BarKey × ℕ)) : Prop where
  /-- The bucket there is has not been built. -/
  fresh : ∀ key, present key → (key, created key) ∉ emitted
  /-- What has been built was created. -/
  bound : ∀ e ∈ emitted, e.2 ≤ created e.1
  nodup : emitted.Nodup
  /-- A bucket that was created has been built, or it is the one there is. -/
  all : ∀ key n, 1 ≤ n → n ≤ created key →
    (key, n) ∈ emitted ∨ n = created key ∧ present key

namespace Instances

variable {present : BarKey → Prop} {created : BarKey → ℕ} {emitted : List (BarKey × ℕ)}

theorem congr {present' : BarKey → Prop} (h : Instances present created emitted)
    (hiff : ∀ key, present' key ↔ present key) : Instances present' created emitted where
  fresh key hkey := h.fresh key ((hiff key).mp hkey)
  bound := h.bound
  nodup := h.nodup
  all key n hpos hle :=
    (h.all key n hpos hle).imp_right fun hlast => ⟨hlast.1, (hiff key).mpr hlast.2⟩

/-- A bucket is created for a key that has none. -/
theorem create (h : Instances present created emitted) {key : BarKey} (hkey : ¬ present key) :
    Instances (fun k => k = key ∨ present k)
      (Function.update created key (created key + 1)) emitted where
  fresh k hk hmem := by
    rcases eq_or_ne k key with rfl | hne
    · have hle := h.bound _ hmem
      simp at hle
    · rw [Function.update_of_ne hne] at hmem
      exact h.fresh k (hk.resolve_left hne) hmem
  bound e he := by
    have hle := h.bound e he
    rcases eq_or_ne e.1 key with heq | hne
    · rw [heq] at hle ⊢
      rw [Function.update_self]
      exact hle.trans (Nat.le_succ _)
    · rw [Function.update_of_ne hne]
      exact hle
  nodup := h.nodup
  all k n hpos hle := by
    rcases eq_or_ne k key with rfl | hne
    · rw [Function.update_self] at hle ⊢
      rcases Nat.le_succ_iff.mp hle with hle | rfl
      · exact Or.inl ((h.all k n hpos hle).resolve_right fun hlast => hkey hlast.2)
      · exact Or.inr ⟨rfl, Or.inl rfl⟩
    · rw [Function.update_of_ne hne] at hle ⊢
      exact (h.all k n hpos hle).imp_right fun hlast => ⟨hlast.1, Or.inr hlast.2⟩

/-- The bucket of a key is taken out and built. -/
theorem emit (h : Instances present created emitted) {key : BarKey} (hkey : present key) :
    Instances (fun k => k ≠ key ∧ present k) created (emitted ++ [(key, created key)]) where
  fresh k hk hmem := by
    rcases List.mem_append.mp hmem with hmem | hmem
    · exact h.fresh k hk.2 hmem
    · exact hk.1 (Prod.mk.inj (List.mem_singleton.mp hmem)).1
  bound e he := by
    rcases List.mem_append.mp he with he | he
    · exact h.bound e he
    · rw [List.mem_singleton.mp he]
  nodup := by
    apply h.nodup.append (List.nodup_singleton _)
    intro e he he'
    rw [List.mem_singleton.mp he'] at he
    exact h.fresh key hkey he
  all k n hpos hle := by
    rcases h.all k n hpos hle with hmem | ⟨hlast, hpresent⟩
    · exact Or.inl (List.mem_append_left _ hmem)
    · by_cases heq : k = key
      · left
        rw [hlast, heq]
        exact List.mem_append_right _ List.mem_cons_self
      · exact Or.inr ⟨hlast, heq, hpresent⟩

end Instances

/-! ## The system with numbered buckets -/

/-- The aggregator, its worker and the writer, with the number of buckets created for each
key and the buckets built so far. -/
structure Traced where
  sys : AggSystem
  created : BarKey → ℕ
  emitted : List (BarKey × ℕ)

namespace Traced

/-- A token bar for a key without a bucket creates one. -/
def createdBy (t : Traced) : AggEvent → BarKey → ℕ
  | .tokenBar input _ =>
    if input.key ∈ t.sys.agg.buckets then t.created
    else Function.update t.created input.key (t.created input.key + 1)
  | _ => t.created

/-- One event; every row it builds is built from the newest bucket of its key. -/
def step (captureEnabled : Bool) (t : Traced) (e : AggEvent) : Option Traced :=
  (t.sys.step captureEnabled e).map fun sys =>
    { sys := sys
      created := t.createdBy e
      emitted := t.emitted ++ (sys.flushed.drop t.sys.flushed.length).map fun bar =>
        (bar.key, t.createdBy e bar.key) }

end Traced

/-- Every token map and every arrival seen so far may be set, but there is no bucket. -/
structure NoBuckets (s : AggSystem) : Prop where
  buckets : s.agg.buckets = ∅
  index : s.agg.bucketIndex = []
  queue : s.agg.flushQueue = []
  pending : s.agg.flushPendingKeys = ∅
  drained : s.drained = []
  flushed : s.flushed = []

/-- The machine that numbers the buckets. -/
def tracedMachine (captureEnabled : Bool) : Machine Traced AggEvent where
  init t := NoBuckets t.sys ∧ t.created = (fun _ => 0) ∧ t.emitted = []
  step := Traced.step captureEnabled

/-! ## Every bucket is known somewhere -/

/-- A key with a bucket stands in the index, is pending, or has been drained; and what is
pending is queued. -/
structure BucketInv (s : AggSystem) : Prop where
  index : IndexWf s.agg.bucketIndex
  queued : ∀ key ∈ s.agg.flushPendingKeys, key ∈ s.agg.flushQueue
  placed : ∀ key ∈ s.agg.buckets,
    Indexed s.agg.bucketIndex key ∨ key ∈ s.agg.flushPendingKeys ∨ key ∈ s.drained

theorem bucketInv_start {s : AggSystem} (h : NoBuckets s) : BucketInv s where
  index := by
    rw [h.index]
    exact ⟨List.Pairwise.nil, List.forall_mem_nil _⟩
  queued key hkey := by
    rw [h.pending] at hkey
    exact absurd hkey (Finset.notMem_empty key)
  placed key hkey := by
    rw [h.buckets] at hkey
    exact absurd hkey (AList.notMem_empty key)

/-- What a token bar does to the four containers. -/
theorem handleTokenBar_containers {input : PairInput} {agg : AggState} {ready : Option PairBucket}
    (h : st.handleTokenBar input = (agg, ready)) :
    agg.flushQueue = st.flushQueue ∧
      agg.bucketIndex = (if input.key ∈ st.buckets then st.bucketIndex
        else indexPush input.key.2.2 input.key st.bucketIndex) ∧
      (ready.isSome ∧ agg.buckets = st.buckets.erase input.key ∧
          agg.flushPendingKeys = st.flushPendingKeys.erase input.key ∨
        ready = none ∧ (∃ bucket, agg.buckets = st.buckets.insert input.key bucket) ∧
          agg.flushPendingKeys = st.flushPendingKeys) := by
  have hrecord : (st.recordArrival input).flushQueue = st.flushQueue ∧
      (st.recordArrival input).bucketIndex = st.bucketIndex ∧
      (st.recordArrival input).flushPendingKeys = st.flushPendingKeys := by
    cases hv : input.venue <;> simp [AggState.recordArrival, hv]
  obtain ⟨hqueue, hindex, hpending⟩ := hrecord
  -- only a key that has no bucket yet is pushed
  have hpushed : agg.bucketIndex = if input.key ∈ st.buckets then st.bucketIndex
      else indexPush input.key.2.2 input.key st.bucketIndex := by
    have hagg : agg = (st.handleTokenBar input).1 := by rw [h]
    rw [hagg]
    unfold AggState.handleTokenBar
    simp only [recordArrival_buckets, hindex]
    cases hl : st.buckets.lookup input.key with
    | none =>
      rw [if_neg (AList.lookup_eq_none.mp hl)]
      split <;> rfl
    | some bucket =>
      rw [if_pos (AList.lookup_isSome.mp (by rw [hl]; rfl))]
      split <;> rfl
  refine ⟨?_, hpushed, ?_⟩
  all_goals
    unfold AggState.handleTokenBar at h
    simp only at h
    split at h
  · cases h
    exact hqueue
  · cases h
    exact hqueue
  · cases h
    exact Or.inl ⟨rfl, by simp, by simp [hpending]⟩
  · cases h
    exact Or.inr ⟨rfl, ⟨_, by simp; rfl⟩, hpending⟩

/-- A token bar keeps every other key where it is. -/
theorem bucketInv_tokenBar {s : AggSystem} {input : PairInput} {agg : AggState}
    {ready : Option PairBucket} (h : BucketInv s)
    (hbar : s.agg.handleTokenBar input = (agg, ready)) :
    BucketInv { s with agg := agg } := by
  obtain ⟨hqueue, hindex, hcases⟩ := handleTokenBar_containers hbar
  have hkept : ∀ key, Indexed s.agg.bucketIndex key → Indexed agg.bucketIndex key := by
    intro key hkey
    rw [hindex]
    split
    · exact hkey
    · exact (indexed_push _ _ _).2 key hkey
  have hsub : agg.flushPendingKeys ⊆ s.agg.flushPendingKeys := by
    rcases hcases with ⟨-, -, hpending⟩ | ⟨-, -, hpending⟩
    · rw [hpending]
      exact Finset.erase_subset _ _
    · rw [hpending]
  constructor
  · show IndexWf agg.bucketIndex
    rw [hindex]
    split
    · exact h.index
    · exact indexWf_push h.index _
  · intro key hkey
    show key ∈ agg.flushQueue
    rw [hqueue]
    exact h.queued key (hsub hkey)
  · intro key hkey
    show Indexed agg.bucketIndex key ∨ key ∈ agg.flushPendingKeys ∨ key ∈ s.drained
    have hold : key ∈ s.agg.buckets →
        (key ∈ s.agg.flushPendingKeys → key ∈ agg.flushPendingKeys) →
        Indexed agg.bucketIndex key ∨ key ∈ agg.flushPendingKeys ∨ key ∈ s.drained := by
      intro hmem hpending
      exact (h.placed key hmem).imp (hkept key) (Or.imp_left hpending)
    rcases hcases with ⟨-, hbuckets, hpending⟩ | ⟨-, ⟨bucket, hbuckets⟩, hpending⟩
    · rw [show key ∈ agg.buckets ↔ _ from by rw [hbuckets], AList.mem_erase] at hkey
      apply hold hkey.2
      intro hmem
      rw [hpending]
      exact Finset.mem_erase.mpr ⟨hkey.1, hmem⟩
    · by_cases hmem : key ∈ s.agg.buckets
      · apply hold hmem
        rw [hpending]
        exact id
      · -- a bucket that is not there yet goes into the index
        rw [show key ∈ agg.buckets ↔ _ from by rw [hbuckets], AList.mem_insert] at hkey
        obtain rfl := hkey.resolve_right hmem
        left
        rw [hindex, if_neg hmem]
        exact (indexed_push _ _ _).1

theorem bucketInv_tick {s : AggSystem} (h : BucketInv s) (barSecond : ℤ) (opiReady : Bool)
    (clock : ℕ) : BucketInv { s with agg := s.agg.handleTick barSecond opiReady clock } := by
  have hscan := handleTick_scanned s.agg barSecond opiReady clock
  constructor
  · exact hscan.index h.index
  · intro key hkey
    rcases hscan.queues.new key hkey with hkey | hkey
    · exact hscan.queues.queue key (h.queued key hkey)
    · exact hkey
  · intro key hkey
    have hmem : key ∈ s.agg.buckets := by
      rw [← hscan.queues.buckets]
      exact hkey
    rcases h.placed key hmem with hindexed | hpending | hdrained
    · exact (hscan.placed key hmem hindexed).imp_right Or.inl
    · exact Or.inr (Or.inl (hscan.queues.kept hpending))
    · exact Or.inr (Or.inr hdrained)

theorem bucketInv_drain {s : AggSystem} (h : BucketInv s) (hnone : s.drained = []) (clock : ℕ) :
    BucketInv { s with
      agg := (s.agg.drainFlushQueue clock).2
      drained := (s.agg.drainFlushQueue clock).1 } := by
  have hdrains := drainFlushQueue_drains s.agg clock
  constructor
  · show IndexWf (s.agg.drainFlushQueue clock).2.bucketIndex
    rw [hdrains.index]
    exact h.index
  · exact hdrains.queue h.queued
  · intro key hkey
    show Indexed (s.agg.drainFlushQueue clock).2.bucketIndex key ∨ _ ∨ _
    rw [hdrains.index]
    have hmem : key ∈ s.agg.buckets := by
      rw [← hdrains.buckets]
      exact hkey
    rcases h.placed key hmem with hindexed | hpending | hdrained
    · exact Or.inl hindexed
    · exact Or.inr (hdrains.pending key hpending).symm
    · rw [hnone] at hdrained
      cases hdrained

/-- Finishing a key leaves the other drained keys. -/
theorem bucketInv_build {s : AggSystem} (h : BucketInv s) {key : BarKey} {rest : List BarKey}
    (hdrained : s.drained = key :: rest) {buckets : AList fun _ : BarKey => PairBucket}
    (hbuckets : ∀ k ∈ buckets, k ≠ key ∧ k ∈ s.agg.buckets) :
    BucketInv { s with agg := { s.agg with buckets := buckets }, drained := rest } where
  index := h.index
  queued := h.queued
  placed k hk := by
    obtain ⟨hne, hmem⟩ := hbuckets k hk
    rcases h.placed k hmem with hindexed | hpending | hin
    · exact Or.inl hindexed
    · exact Or.inr (Or.inl hpending)
    · rw [hdrained] at hin
      exact Or.inr (Or.inr ((List.mem_cons.mp hin).resolve_left hne))

theorem BucketInv.congr {s s' : AggSystem} (h : BucketInv s) (hagg : s'.agg = s.agg)
    (hdrained : s'.drained = s.drained) : BucketInv s' := by
  constructor
  · rw [hagg]
    exact h.index
  · rw [hagg]
    exact h.queued
  · rw [hagg, hdrained]
    exact h.placed

/-- The row of a complete bucket is built at once. -/
theorem step_tokenBar {captureEnabled : Bool} {s s' : AggSystem} {input : PairInput}
    {env : BuildInputs} {agg : AggState} {ready : Option PairBucket}
    (hbar : s.agg.handleTokenBar input = (agg, ready))
    (hs : s.step captureEnabled (.tokenBar input env) = some s') :
    s'.agg = agg ∧ s'.drained = s.drained ∧ s'.flushed = s.flushed ++ (ready.map fun bucket =>
      buildBarWithContext input.key bucket env.ctx env.stats env.opiReady).toList := by
  simp only [AggSystem.step, hbar] at hs
  cases ready with
  | none =>
    cases hs
    exact ⟨rfl, rfl, (List.append_nil _).symm⟩
  | some bucket =>
    cases hs
    exact ⟨rfl, rfl, rfl⟩

theorem bucketInv_step {captureEnabled : Bool} {s s' : AggSystem} {e : AggEvent} (h : BucketInv s)
    (hs : s.step captureEnabled e = some s') : BucketInv s' := by
  cases e with
  | tokenBar input env =>
    obtain ⟨hagg, hdrained, -⟩ := step_tokenBar rfl hs
    exact (bucketInv_tokenBar h rfl).congr hagg hdrained
  | tick barSecond opiReady clock =>
    cases hs
    exact bucketInv_tick h barSecond opiReady clock
  | drain clock =>
    unfold AggSystem.step at hs
    simp only at hs
    split at hs
    · rename_i hidle
      cases hs
      exact bucketInv_drain h hidle.1 clock
    · cases hs
  | build env =>
    unfold AggSystem.step at hs
    simp only at hs
    split at hs
    · rename_i key rest hdrained hbuilt
      split at hs
      · rename_i hnone
        cases hs
        refine bucketInv_build h hdrained fun k hk => ⟨?_, hk⟩
        rintro rfl
        exact AList.lookup_eq_none.mp hnone hk
      · cases hs
        have herase : ∀ k ∈ s.agg.buckets.erase key, k ≠ key ∧ k ∈ s.agg.buckets :=
          fun k hk => AList.mem_erase.mp hk
        exact (bucketInv_build h hdrained herase).congr rfl rfl
    · cases hs
  | send =>
    unfold AggSystem.step at hs
    simp only at hs
    split at hs
    · cases hs
      exact h.congr rfl rfl
    · cases hs
  | write n =>
    unfold AggSystem.step at hs
    simp only at hs
    split at hs
    · cases hs
      exact h.congr rfl rfl
    · cases hs

/-! ## Whole runs -/

/-- Nothing but the numbers changes where no row is built and no bucket is created. -/
theorem Traced.step_quiet {captureEnabled : Bool} {t t' : Traced} {e : AggEvent} {sys : AggSystem}
    (hs : t.step captureEnabled e = some t') (hsys : t.sys.step captureEnabled e = some sys)
    (hcreated : t.createdBy e = t.created) (hflushed : sys.flushed = t.sys.flushed) :
    t' = ⟨sys, t.created, t.emitted⟩ := by
  unfold Traced.step at hs
  rw [hsys, hcreated] at hs
  cases hs
  simp [hflushed]

/-- The numbered buckets of a traced state. -/
structure TracedInv (t : Traced) : Prop where
  inv : BucketInv t.sys
  instances : Instances (· ∈ t.sys.agg.buckets) t.created t.emitted
  /-- The numbers belong to the rows. -/
  rows : t.emitted.map Prod.fst = t.sys.flushed.map Bars1sPair.key

theorem tracedInv_start {captureEnabled : Bool} {t : Traced}
    (h : (tracedMachine captureEnabled).init t) : TracedInv t := by
  obtain ⟨hnone, hcreated, hemitted⟩ := h
  refine ⟨bucketInv_start hnone, ?_, by rw [hemitted, hnone.flushed]; rfl⟩
  rw [hcreated, hemitted]
  constructor
  · exact fun _ _ => List.not_mem_nil
  · exact List.forall_mem_nil _
  · exact List.nodup_nil
  · intro key n hpos hle
    omega

/-- The buckets and the numbers after one event. -/
theorem instances_step {captureEnabled : Bool} {t t' : Traced} {e : AggEvent} (h : TracedInv t)
    (hs : t.step captureEnabled e = some t') :
    Instances (· ∈ t'.sys.agg.buckets) t'.created t'.emitted ∧
      t'.emitted.map Prod.fst = t'.sys.flushed.map Bars1sPair.key := by
  have hkeep : ∀ sys, t.sys.step captureEnabled e = some sys → t.createdBy e = t.created →
      (∀ key, key ∈ sys.agg.buckets ↔ key ∈ t.sys.agg.buckets) →
      sys.flushed = t.sys.flushed →
      Instances (· ∈ t'.sys.agg.buckets) t'.created t'.emitted ∧
        t'.emitted.map Prod.fst = t'.sys.flushed.map Bars1sPair.key := by
    intro sys hsys hcreated hbuckets hflushed
    rw [Traced.step_quiet hs hsys hcreated hflushed]
    refine ⟨h.instances.congr hbuckets, ?_⟩
    show t.emitted.map Prod.fst = sys.flushed.map Bars1sPair.key
    rw [hflushed]
    exact h.rows
  have hnew : ∀ (bar : Bars1sPair) {sys : AggSystem} {created : BarKey → ℕ},
      Instances (fun k => k = bar.key ∨ k ∈ t.sys.agg.buckets) created t.emitted →
      (∀ key, key ∈ sys.agg.buckets ↔ key ≠ bar.key ∧ key ∈ t.sys.agg.buckets) →
      sys.flushed = t.sys.flushed ++ [bar] →
      t' = ⟨sys, created, t.emitted ++ (sys.flushed.drop t.sys.flushed.length).map fun bar =>
        (bar.key, created bar.key)⟩ →
      Instances (· ∈ t'.sys.agg.buckets) t'.created t'.emitted ∧
        t'.emitted.map Prod.fst = t'.sys.flushed.map Bars1sPair.key := by
    intro bar sys created hinst hbuckets hflushed ht
    have hdrop : sys.flushed.drop t.sys.flushed.length = [bar] := by
      rw [hflushed, List.drop_left]
    rw [ht, hdrop]
    refine ⟨(hinst.emit (Or.inl rfl)).congr fun key => ?_, ?_⟩
    · show key ∈ sys.agg.buckets ↔ _
      rw [hbuckets key]
      exact and_congr_right fun hne => (or_iff_right hne).symm
    · show (t.emitted ++ [(bar.key, created bar.key)]).map Prod.fst = sys.flushed.map _
      rw [hflushed, List.map_append, List.map_append, h.rows]
      rfl
  have hall := hs
  unfold Traced.step at hall
  obtain ⟨sys, hsys, ht⟩ := Option.map_eq_some_iff.mp hall
  cases e with
  | tokenBar input env =>
    obtain ⟨hagg, -, hflushed⟩ := step_tokenBar rfl hsys
    obtain ⟨-, -, hcases⟩ := @handleTokenBar_containers t.sys.agg input _ _ rfl
    rw [← hagg] at hcases
    -- the key has a bucket after the bar has been filled in
    have hinst : Instances (fun k => k = input.key ∨ k ∈ t.sys.agg.buckets)
        (t.createdBy (.tokenBar input env)) t.emitted := by
      unfold Traced.createdBy
      simp only
      split
      · rename_i hmem
        exact h.instances.congr fun key => or_iff_right_of_imp fun heq => heq ▸ hmem
      · rename_i hmem
        exact h.instances.create hmem
    rcases hcases with ⟨hsome, hbuckets, -⟩ | ⟨hnone, ⟨bucket, hbuckets⟩, -⟩
    · obtain ⟨bucket, hbucket⟩ := Option.isSome_iff_exists.mp hsome
      rw [hbucket] at hflushed
      refine hnew (buildBarWithContext input.key bucket env.ctx env.stats env.opiReady)
        hinst (fun key => ?_) hflushed ht.symm
      rw [hbuckets]
      exact AList.mem_erase
    · rw [hnone] at hflushed
      have hsame : sys.flushed = t.sys.flushed := hflushed.trans (List.append_nil _)
      rw [← ht, hsame, List.drop_length, List.map_nil, List.append_nil]
      refine ⟨hinst.congr fun key => ?_, ?_⟩
      · show key ∈ sys.agg.buckets ↔ _
        rw [hbuckets]
        exact AList.mem_insert _
      · exact h.rows
  | tick barSecond opiReady clock =>
    cases hsys
    refine hkeep _ rfl rfl (fun key => ?_) rfl
    show key ∈ (t.sys.agg.handleTick barSecond opiReady clock).buckets ↔ _
    rw [handleTick_buckets]
  | drain clock =>
    have hsys' := hsys
    unfold AggSystem.step at hsys'
    simp only at hsys'
    split at hsys'
    · cases hsys'
      refine hkeep _ hsys rfl (fun key => ?_) rfl
      show key ∈ (t.sys.agg.drainFlushQueue clock).2.buckets ↔ _
      rw [drainFlushQueue_buckets]
    · cases hsys'
  | build env =>
    have hsys' := hsys
    unfold AggSystem.step at hsys'
    simp only at hsys'
    split at hsys'
    · rename_i key rest hdrained hbuilt
      split at hsys'
      · cases hsys'
        exact hkeep _ hsys rfl (fun key => Iff.rfl) rfl
      · rename_i bucket hbucket
        cases hsys'
        have hmem : key ∈ t.sys.agg.buckets := AList.lookup_isSome.mp (by rw [hbucket]; rfl)
        refine hnew (buildBarWithContext key bucket env.ctx env.stats env.opiReady)
          (h.instances.congr fun k => or_iff_right_of_imp fun heq => heq ▸ hmem)
          (fun k => AList.mem_erase) rfl ht.symm
    · cases hsys'
  | send =>
    have hsys' := hsys
    unfold AggSystem.step at hsys'
    simp only at hsys'
    split at hsys'
    · cases hsys'
      exact hkeep _ hsys rfl (fun key => Iff.rfl) rfl
    · cases hsys'
  | write n =>
    have hsys' := hsys
    unfold AggSystem.step at hsys'
    simp only at hsys'
    split at hsys'
    · cases hsys'
      exact hkeep _ hsys rfl (fun key => Iff.rfl) rfl
    · cases hsys'

theorem tracedInv_step {captureEnabled : Bool} {t t' : Traced} {e : AggEvent} (h : TracedInv t)
    (hs : t.step captureEnabled e = some t') : TracedInv t' := by
  obtain ⟨hinstances, hrows⟩ := instances_step h hs
  refine ⟨?_, hinstances, hrows⟩
  unfold Traced.step at hs
  obtain ⟨sys, hsys, rfl⟩ := Option.map_eq_some_iff.mp hs
  exact bucketInv_step h.inv hsys

/-- Every interleaving keeps each bucket in the index, on its way to the worker, or in the
worker's hands, and builds each bucket at most once.  A pending key is queued; a queued key
that is not pending is not handed to the worker. -/
theorem buckets_conserved {captureEnabled : Bool} {t : Traced}
    (h : (tracedMachine captureEnabled).Reachable t) :
    (∀ key ∈ t.sys.agg.buckets, Indexed t.sys.agg.bucketIndex key ∨
        key ∈ t.sys.agg.flushPendingKeys ∧ key ∈ t.sys.agg.flushQueue ∨ key ∈ t.sys.drained) ∧
      t.emitted.map Prod.fst = t.sys.flushed.map Bars1sPair.key ∧
      t.emitted.Nodup ∧
      (∀ e ∈ t.emitted, e.2 ≤ t.created e.1) ∧
      (∀ key n, 1 ≤ n → n ≤ t.created key →
        ((key, n) ∈ t.emitted ↔ ¬ (n = t.created key ∧ key ∈ t.sys.agg.buckets))) ∧
      (∀ key ∈ t.sys.agg.flushPendingKeys, key ∈ t.sys.agg.flushQueue) ∧
      ∀ clock, ∀ key ∈ (t.sys.agg.drainFlushQueue clock).1, key ∈ t.sys.agg.flushPendingKeys := by
  have hinv : TracedInv t := (tracedMachine captureEnabled).inv_of_reachable
    (fun _ => tracedInv_start) (fun _ _ _ => tracedInv_step) h
  refine ⟨fun key hkey => ?_, hinv.rows, hinv.instances.nodup, hinv.instances.bound, ?_,
    hinv.inv.queued, fun clock => (drainFlushQueue_drains _ clock).taken⟩
  · refine (hinv.inv.placed key hkey).imp_right (Or.imp_left fun hpending => ?_)
    exact ⟨hpending, hinv.inv.queued key hpending⟩
  · intro key n hpos hle
    constructor
    · rintro hmem ⟨rfl, hpresent⟩
      exact hinv.instances.fresh key hpresent hmem
    · exact fun hnot => (hinv.instances.all key n hpos hle).resolve_right hnot

/-! ## A queued key that is not pending -/

/-- Nothing has arrived yet. -/
def Traced.start (lateArrivalBufferS : ℤ) : Traced :=
  ⟨AggSystem.start lateArrivalBufferS, fun _ => 0, []⟩

theorem tracedMachine_init (captureEnabled : Bool) (lateArrivalBufferS : ℤ) :
    (tracedMachine captureEnabled).init (Traced.start lateArrivalBufferS) :=
  ⟨⟨rfl, rfl, rfl, rfl, rfl, rfl⟩, rfl, rfl⟩

/-- The Polymarket half arrives and a tick queues it; then the Opinion half completes the
bucket before the worker looks at the queue. -/
def completedInQueue : List AggEvent :=
  [.tokenBar pmSecond noContext, .tick 110 true 100, .tokenBar opiSecond noContext]

/-- The worker then drops the key, and the bucket has been built once. -/
theorem buckets_conserved_completed :
    ∃ t, (tracedMachine true).run (Traced.start 2) (completedInQueue ++ [.drain 100]) = some t ∧
      t.emitted = [(pmSecond.key, 1)] ∧ t.sys.drained = [] ∧ t.emitted.Nodup := by
  refine ⟨_, rfl, rfl, rfl, ?_⟩
  exact (buckets_conserved
    ⟨_, completedInQueue ++ [.drain 100], tracedMachine_init true 2, rfl⟩).2.2.1

/-- The completed key is not pending any more and still stands in the queue. -/
theorem queue_keeps_completed_key :
    ∃ t, (tracedMachine true).Reachable t ∧ pmSecond.key ∈ t.sys.agg.flushQueue ∧
      pmSecond.key ∉ t.sys.agg.flushPendingKeys := by
  refine ⟨_, ⟨_, completedInQueue, tracedMachine_init true 2, rfl⟩, ?_, ?_⟩
  · exact List.mem_cons_self
  · decide +kernel

end AlphaMonitor.Pair
