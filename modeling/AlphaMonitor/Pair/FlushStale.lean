import AlphaMonitor.Pair.Confluence
import Mathlib.Data.Finset.Card
import Mathlib.Data.List.Pairwise

/-!
# Does `flush_stale` come to an end

The loop of `flush_stale` takes the oldest second off the index, queues its ready keys
and puts the others back, under the same second.  Nothing but the time budget stops it
from taking the same second again.  This file follows the loop with a clock that never
runs out.

## Main definitions

- `AggState.Ready`, `AggState.Waiting`: what the loop does with a key
- `AggState.flushTurn`, `AggState.flushRun`: the loop without its time budget

## Main results

- `flushKeys_spec`: what one second contributes
- `flushStale_settles_iff`: when the loop ends, and that it then has queued what is ready
-/

namespace AlphaMonitor.Pair

namespace AggState

variable (st : AggState) (opiReady : Bool)

/-! ## The loop without its time budget -/

/-- Seconds from here on are left alone. -/
def staleCutoff : ℤ := st.currentTick - max st.lateArrivalBufferS 0

/-- One turn of the outer loop: the number of queued keys and the state after it, or
`none` where the loop ends. -/
def flushTurn (cutoff : ℤ) (processed : ℕ) : Option (ℕ × AggState) :=
  if processed ≥ flushStaleMaxKeys then none
  else
    match st.bucketIndex with
    | [] => none
    | (second, keys) :: rest =>
      if second ≥ cutoff then none
      else
        -- one reading for each key is enough
        let (remaining, _, processed', st') :=
          flushKeys opiReady keys keys.length processed { st with bucketIndex := rest }
        let index := if remaining = [] then rest else (second, remaining) :: rest
        some (processed', { st' with bucketIndex := index })

/-- At most `turns` turns of the loop; `none` if it has not ended by then. -/
def flushRun (cutoff : ℤ) : ℕ → ℕ → AggState → Option (ℕ × AggState)
  | 0, _, _ => none
  | turns + 1, processed, st =>
    match st.flushTurn opiReady cutoff processed with
    | none => some (processed, st)
    | some (processed', st') => flushRun cutoff turns processed' st'

/-- The key is not queued yet and its bucket is ready to be flushed. -/
def Ready (key : BarKey) : Prop :=
  key ∉ st.flushPendingKeys ∧
    ∃ bucket, st.buckets.lookup key = some bucket ∧ st.shouldFlushBucket key bucket opiReady = true

/-- The key is not queued yet and its bucket may not be flushed yet. -/
def Waiting (key : BarKey) : Prop :=
  key ∉ st.flushPendingKeys ∧
    ∃ bucket, st.buckets.lookup key = some bucket ∧
      st.shouldFlushBucket key bucket opiReady = false

instance : DecidablePred (st.Ready opiReady) := fun key =>
  match h : st.buckets.lookup key with
  | none => isFalse fun ⟨_, _, hsome, _⟩ => by rw [h] at hsome; cases hsome
  | some bucket =>
    decidable_of_iff
      (key ∉ st.flushPendingKeys ∧ st.shouldFlushBucket key bucket opiReady = true)
      (and_congr_right fun _ => ⟨fun hready => ⟨bucket, h, hready⟩, fun ⟨_, hsome, hready⟩ => by
        cases h.symm.trans hsome
        exact hready⟩)

instance : DecidablePred (st.Waiting opiReady) := fun key =>
  match h : st.buckets.lookup key with
  | none => isFalse fun ⟨_, _, hsome, _⟩ => by rw [h] at hsome; cases hsome
  | some bucket =>
    decidable_of_iff
      (key ∉ st.flushPendingKeys ∧ st.shouldFlushBucket key bucket opiReady = false)
      (and_congr_right fun _ => ⟨fun hready => ⟨bucket, h, hready⟩, fun ⟨_, hsome, hready⟩ => by
        cases h.symm.trans hsome
        exact hready⟩)

/-- The state after these keys have been queued. -/
def queued (new : List BarKey) : AggState :=
  { st with
    flushQueue := st.flushQueue ++ new
    flushPendingKeys := st.flushPendingKeys ∪ new.toFinset }

/-- The keys among these that are ready. -/
def readyKeys (keys : List BarKey) : Finset BarKey :=
  (keys.filter fun key => st.Ready opiReady key).toFinset

end AggState

variable {st : AggState} {opiReady : Bool}

theorem mem_readyKeys {keys : List BarKey} {key : BarKey} :
    key ∈ st.readyKeys opiReady keys ↔ key ∈ keys ∧ st.Ready opiReady key := by
  simp [AggState.readyKeys]

/-- Queuing a key makes it neither ready nor waiting, and changes no other key. -/
theorem ready_queued_iff {new : List BarKey} {key : BarKey} :
    (st.queued new).Ready opiReady key ↔ st.Ready opiReady key ∧ key ∉ new := by
  unfold AggState.Ready AggState.queued
  simp only [Finset.mem_union, List.mem_toFinset, not_or]
  constructor
  · rintro ⟨⟨hpending, hnew⟩, hbucket⟩
    exact ⟨⟨hpending, hbucket⟩, hnew⟩
  · rintro ⟨⟨hpending, hbucket⟩, hnew⟩
    exact ⟨⟨hpending, hnew⟩, hbucket⟩

theorem waiting_queued_iff {new : List BarKey} (hnew : ∀ key ∈ new, st.Ready opiReady key)
    {key : BarKey} : (st.queued new).Waiting opiReady key ↔ st.Waiting opiReady key := by
  constructor
  · rintro ⟨hpending, hbucket⟩
    refine ⟨fun hmem => hpending ?_, hbucket⟩
    exact Finset.mem_union_left _ hmem
  · rintro ⟨hpending, bucket, hlookup, hwait⟩
    refine ⟨fun hmem => ?_, bucket, hlookup, hwait⟩
    rcases Finset.mem_union.mp hmem with hmem | hmem
    · exact hpending hmem
    · obtain ⟨-, bucket', hlookup', hready⟩ := hnew key (List.mem_toFinset.mp hmem)
      cases hlookup.symm.trans hlookup'
      rw [hwait] at hready
      cases hready

/-- What the inner loop does with the keys of one second. -/
structure SecondFlushed (st : AggState) (opiReady : Bool) (keys : List BarKey) (clock processed : ℕ)
    (result : List BarKey × ℕ × ℕ × AggState) (new : List BarKey) : Prop where
  state : result.2.2.2 = st.queued new
  count : result.2.2.1 = processed + new.length
  nodup : new.Nodup
  ready : ∀ key ∈ new, key ∈ keys ∧ st.Ready opiReady key
  limit : processed ≤ flushStaleMaxKeys → result.2.2.1 ≤ flushStaleMaxKeys
  /-- Below the limit every key has been looked at. -/
  all : result.2.2.1 < flushStaleMaxKeys →
    (∀ key ∈ keys, st.Ready opiReady key → key ∈ new) ∧
      result.1 = keys.filter fun key => st.Waiting opiReady key
  clock : clock ≤ result.2.1 + keys.length

@[simp] theorem queued_nil (st : AggState) : st.queued [] = st := by
  simp [AggState.queued]

theorem queued_queued (st : AggState) (new new' : List BarKey) :
    (st.queued new).queued new' = st.queued (new ++ new') := by
  simp [AggState.queued, List.append_assoc, Finset.union_assoc]

theorem queued_singleton (st : AggState) (key : BarKey) :
    { st with
      flushQueue := st.flushQueue ++ [key]
      flushPendingKeys := insert key st.flushPendingKeys } = st.queued [key] := by
  unfold AggState.queued
  rw [List.toFinset_cons, List.toFinset_nil, Finset.union_comm]
  rfl

/-- The inner loop stops at the limit. -/
theorem secondFlushed_limit {keys : List BarKey} {clock processed : ℕ}
    (hlimit : flushStaleMaxKeys ≤ processed) :
    SecondFlushed st opiReady keys clock processed (keys, clock, processed, st) [] where
  state := (queued_nil st).symm
  count := rfl
  nodup := List.nodup_nil
  ready _ hkey := absurd hkey List.not_mem_nil
  limit h := h
  all h := absurd h (not_lt.mpr hlimit)
  clock := Nat.le_add_right _ _

theorem flushKeys_spec (opiReady : Bool) (keys : List BarKey) (clock processed : ℕ)
    (st : AggState) (hclock : keys.length ≤ clock) :
    ∃ new, SecondFlushed st opiReady keys clock processed
      (st.flushKeys opiReady keys clock processed) new := by
  induction keys generalizing clock processed st with
  | nil =>
    refine ⟨[], (queued_nil st).symm, rfl, List.nodup_nil, ?_, fun h => h, ?_, le_refl _⟩
    · exact fun key hkey => absurd hkey List.not_mem_nil
    · exact fun _ => ⟨fun key hkey => absurd hkey List.not_mem_nil, rfl⟩
  | cons key rest ih =>
    unfold AggState.flushKeys
    split
    · rename_i hlimit
      exact ⟨[], secondFlushed_limit hlimit⟩
    · rename_i hbelow
      obtain ⟨clock, rfl⟩ : ∃ c, clock = c + 1 := ⟨clock - 1, by
        rw [List.length_cons] at hclock
        omega⟩
      have hrest : rest.length ≤ clock := by
        rw [List.length_cons] at hclock
        omega
      -- a key that is neither ready nor waiting is dropped
      have hdrop : ∀ {result new}, ¬ st.Ready opiReady key → ¬ st.Waiting opiReady key →
          SecondFlushed st opiReady rest clock processed result new →
            SecondFlushed st opiReady (key :: rest) (clock + 1) processed result new := by
        intro result new hready hwait h
        refine ⟨h.state, h.count, h.nodup, ?_, h.limit, ?_, ?_⟩
        · exact fun key' hkey' => ⟨List.mem_cons_of_mem _ (h.ready key' hkey').1,
            (h.ready key' hkey').2⟩
        · intro hlt
          obtain ⟨hall, hremaining⟩ := h.all hlt
          refine ⟨?_, ?_⟩
          · intro key' hkey' hready'
            rcases List.mem_cons.mp hkey' with rfl | hkey'
            · exact absurd hready' hready
            · exact hall key' hkey' hready'
          · rw [hremaining, List.filter_cons_of_neg (by simpa using hwait)]
        · have hle := h.clock
          rw [List.length_cons]
          omega
      simp only
      split
      · rename_i hpending
        obtain ⟨new, hnew⟩ := ih clock processed st hrest
        exact ⟨new, hdrop (fun h => h.1 hpending) (fun h => h.1 hpending) hnew⟩
      · rename_i hpending
        split
        · rename_i hnone
          obtain ⟨new, hnew⟩ := ih clock processed st hrest
          refine ⟨new, hdrop ?_ ?_ hnew⟩
          · rintro ⟨-, bucket, hsome, -⟩
            cases hnone.symm.trans hsome
          · rintro ⟨-, bucket, hsome, -⟩
            cases hnone.symm.trans hsome
        · rename_i bucket hbucket
          split
          · rename_i hflush
            have hready : st.Ready opiReady key := ⟨hpending, bucket, hbucket, hflush⟩
            rw [queued_singleton]
            obtain ⟨new, hnew⟩ := ih clock (processed + 1) (st.queued [key]) hrest
            have hkey : ∀ key' ∈ new, key' ≠ key ∧ key' ∈ rest ∧ st.Ready opiReady key' := by
              intro key' hkey'
              obtain ⟨hmem, hready'⟩ := hnew.ready key' hkey'
              obtain ⟨hready', hne⟩ := ready_queued_iff.mp hready'
              exact ⟨List.ne_of_not_mem_cons hne, hmem, hready'⟩
            have hone : ∀ key' ∈ [key], st.Ready opiReady key' := by
              intro key' hkey'
              rw [List.mem_singleton.mp hkey']
              exact hready
            refine ⟨key :: new, ?_, ?_, ?_, ?_, ?_, ?_, ?_⟩
            · exact hnew.state.trans (queued_queued st [key] new)
            · rw [hnew.count, List.length_cons]
              omega
            · exact List.nodup_cons.mpr ⟨fun hmem => (hkey key hmem).1 rfl, hnew.nodup⟩
            · intro key' hkey'
              rcases List.mem_cons.mp hkey' with rfl | hkey'
              · exact ⟨List.mem_cons_self, hready⟩
              · exact ⟨List.mem_cons_of_mem _ (hkey key' hkey').2.1, (hkey key' hkey').2.2⟩
            · exact fun _ => hnew.limit (by omega)
            · intro hlt
              obtain ⟨hall, hremaining⟩ := hnew.all hlt
              refine ⟨?_, ?_⟩
              · intro key' hkey' hready'
                by_cases heq : key' = key
                · exact heq ▸ List.mem_cons_self
                · rcases List.mem_cons.mp hkey' with h | hkey'
                  · exact absurd h heq
                  · apply List.mem_cons_of_mem
                    apply hall key' hkey'
                    exact ready_queued_iff.mpr ⟨hready', fun h => heq (List.mem_singleton.mp h)⟩
              · have hnot : ¬ st.Waiting opiReady key := by
                  rintro ⟨-, bucket', hbucket', hwait⟩
                  cases hbucket.symm.trans hbucket'
                  rw [hflush] at hwait
                  cases hwait
                rw [hremaining, List.filter_cons_of_neg (by simpa using hnot)]
                apply List.filter_congr
                intro key' _
                exact decide_eq_decide.mpr (waiting_queued_iff hone)
            · have hle := hnew.clock
              rw [List.length_cons]
              omega
          · rename_i hwait
            have hwaiting : st.Waiting opiReady key :=
              ⟨hpending, bucket, hbucket, by simpa using hwait⟩
            have hnot : ¬ st.Ready opiReady key := by
              rintro ⟨-, bucket', hbucket', hready⟩
              cases hbucket.symm.trans hbucket'
              exact hwait hready
            obtain ⟨new, hnew⟩ := ih clock processed st hrest
            refine ⟨new, hnew.state, hnew.count, hnew.nodup, ?_, hnew.limit, ?_, ?_⟩
            · exact fun key' hkey' => ⟨List.mem_cons_of_mem _ (hnew.ready key' hkey').1,
                (hnew.ready key' hkey').2⟩
            · intro hlt
              obtain ⟨hall, hremaining⟩ := hnew.all hlt
              refine ⟨?_, ?_⟩
              · intro key' hkey' hready'
                rcases List.mem_cons.mp hkey' with rfl | hkey'
                · exact absurd hready' hnot
                · exact hall key' hkey' hready'
              · rw [List.filter_cons_of_pos (by simpa using hwaiting), ← hremaining]
            · exact Nat.succ_le_succ hnew.clock

/-! ## One turn after the other -/

/-- The loop has queued what is ready in `before`, and `rest` is left. -/
structure Visited (st : AggState) (opiReady : Bool) (before rest : List (ℤ × List BarKey))
    (processed : ℕ) (now : AggState) (new : List BarKey) : Prop where
  state : now = { st.queued new with bucketIndex := rest }
  count : processed = new.length
  nodup : new.Nodup
  ready : ∀ key, key ∈ new ↔ key ∈ before.flatMap (·.2) ∧ st.Ready opiReady key

variable {before rest : List (ℤ × List BarKey)} {processed : ℕ} {now : AggState}
  {new : List BarKey} {second cutoff : ℤ} {keys : List BarKey}

/-- The keys queued so far are those that are ready. -/
theorem Visited.card (h : Visited st opiReady before rest processed now new) :
    (st.readyKeys opiReady (before.flatMap (·.2))).card = processed := by
  have hset : st.readyKeys opiReady (before.flatMap (·.2)) = new.toFinset := by
    ext key
    rw [mem_readyKeys, List.mem_toFinset]
    exact (h.ready key).symm
  rw [hset, List.toFinset_card_of_nodup h.nodup, h.count]

/-- What one turn leaves: the second is done with, or its waiting keys are put back. -/
structure Turned (st : AggState) (opiReady : Bool) (before rest : List (ℤ × List BarKey))
    (second : ℤ) (keys : List BarKey) (processed : ℕ) (new new' remaining : List BarKey)
    (processed' : ℕ) : Prop where
  count : processed' = processed + new'.length
  limit : processed' ≤ flushStaleMaxKeys
  ready : ∀ key ∈ new', key ∈ keys ∧ st.Ready opiReady key ∧ key ∉ new
  nodup : (new ++ new').Nodup
  all : processed' < flushStaleMaxKeys →
    remaining = (keys.filter fun key => st.Waiting opiReady key) ∧
      Visited st opiReady (before ++ [(second, keys)])
        (if remaining = [] then rest else (second, remaining) :: rest) processed'
        { st.queued (new ++ new') with
          bucketIndex := if remaining = [] then rest else (second, remaining) :: rest }
        (new ++ new')

theorem Visited.turn (h : Visited st opiReady before ((second, keys) :: rest) processed now new)
    (hlimit : processed < flushStaleMaxKeys) (hcutoff : second < cutoff) :
    ∃ new' remaining processed',
      now.flushTurn opiReady cutoff processed =
        some (processed', { st.queued (new ++ new') with
          bucketIndex := if remaining = [] then rest else (second, remaining) :: rest }) ∧
      Turned st opiReady before rest second keys processed new new' remaining processed' := by
  obtain ⟨new', hnew'⟩ := flushKeys_spec opiReady keys keys.length processed
    { st.queued new with bucketIndex := rest } (le_refl _)
  obtain ⟨⟨remaining, clock, processed', st'⟩, hresult⟩ : ∃ result,
      AggState.flushKeys opiReady keys keys.length processed
        { st.queued new with bucketIndex := rest } = result := ⟨_, rfl⟩
  rw [hresult] at hnew'
  have hready : ∀ key, AggState.Ready { st.queued new with bucketIndex := rest } opiReady key ↔
      st.Ready opiReady key ∧ key ∉ new := fun key => ready_queued_iff
  have hqueued : ∀ key ∈ new, st.Ready opiReady key := fun key hkey => ((h.ready key).mp hkey).2
  have hnodup : (new ++ new').Nodup := by
    refine List.nodup_append'.mpr ⟨h.nodup, hnew'.nodup, ?_⟩
    intro key hkey hkey'
    exact ((hready key).mp (hnew'.ready key hkey').2).2 hkey
  refine ⟨new', remaining, processed', ?_, hnew'.count, hnew'.limit hlimit.le, ?_, hnodup, ?_⟩
  · have hstate : st' = { st.queued (new ++ new') with bucketIndex := rest } := by
      rw [← queued_queued]
      exact hnew'.state
    rw [h.state]
    unfold AggState.flushTurn
    rw [if_neg (not_le.mpr hlimit)]
    simp only
    rw [if_neg (not_le.mpr hcutoff), hresult, hstate]
  · intro key hkey
    obtain ⟨hmem, hkey⟩ := hnew'.ready key hkey
    exact ⟨hmem, (hready key).mp hkey⟩
  · intro hbelow
    obtain ⟨hall, hremaining⟩ := hnew'.all hbelow
    refine ⟨?_, rfl, ?_, hnodup, ?_⟩
    · refine Eq.trans hremaining (List.filter_congr ?_)
      intro key _
      exact decide_eq_decide.mpr (waiting_queued_iff hqueued)
    · have hcount : processed' = processed + new'.length := hnew'.count
      rw [hcount, h.count, List.length_append]
    · intro key
      rw [List.mem_append, List.flatMap_append, List.mem_append, h.ready]
      constructor
      · rintro (⟨hmem, hkey⟩ | hkey)
        · exact ⟨Or.inl hmem, hkey⟩
        · obtain ⟨hmem, hkey⟩ := hnew'.ready key hkey
          exact ⟨Or.inr (by simpa using hmem), ((hready key).mp hkey).1⟩
      · rintro ⟨hmem | hmem, hkey⟩
        · exact Or.inl ⟨hmem, hkey⟩
        · by_cases hold : key ∈ new
          · exact Or.inl ((h.ready key).mp hold)
          · exact Or.inr (hall key (by simpa using hmem) ((hready key).mpr ⟨hkey, hold⟩))

/-- The keys queued after a turn are ready ones. -/
theorem Turned.card {new' remaining : List BarKey} {processed' : ℕ}
    (hturned : Turned st opiReady before rest second keys processed new new' remaining processed')
    (h : Visited st opiReady before ((second, keys) :: rest) processed now new) :
    processed' ≤ (st.readyKeys opiReady ((before ++ [(second, keys)]).flatMap (·.2))).card := by
  have hcount : processed' = (new ++ new').toFinset.card := by
    rw [List.toFinset_card_of_nodup hturned.nodup, List.length_append, ← h.count, hturned.count]
  rw [hcount]
  apply Finset.card_le_card
  intro key hkey
  rw [mem_readyKeys, List.flatMap_append, List.mem_append]
  rcases List.mem_append.mp (List.mem_toFinset.mp hkey) with hkey | hkey
  · obtain ⟨hmem, hready⟩ := (h.ready key).mp hkey
    exact ⟨Or.inl hmem, hready⟩
  · obtain ⟨hmem, hready, -⟩ := hturned.ready key hkey
    exact ⟨Or.inr (by simpa using hmem), hready⟩

/-- A second of `rest` keeps a key back before enough others are queued. -/
def Stalls (st : AggState) (opiReady : Bool) (cutoff : ℤ) (before rest : List (ℤ × List BarKey)) :
    Prop :=
  ∃ mid entry after, rest = mid ++ entry :: after ∧ (∀ e ∈ mid, e.1 < cutoff) ∧
    entry.1 < cutoff ∧ (∃ key ∈ entry.2, st.Waiting opiReady key) ∧
    (st.readyKeys opiReady ((before ++ mid ++ [entry]).flatMap (·.2))).card < flushStaleMaxKeys

theorem readyKeys_mono {keys keys' : List BarKey} (h : ∀ key ∈ keys, key ∈ keys') :
    (st.readyKeys opiReady keys).card ≤ (st.readyKeys opiReady keys').card := by
  apply Finset.card_le_card
  intro key hkey
  rw [mem_readyKeys] at hkey ⊢
  exact ⟨h key hkey.1, hkey.2⟩

/-- What the loop has done when it ends: the limit is reached, or everything that is ready
and old enough is queued. -/
def Done (st : AggState) (opiReady : Bool) (cutoff : ℤ) (index : List (ℤ × List BarKey))
    (result : ℕ × AggState) : Prop :=
  flushStaleMaxKeys ≤ result.1 ∨
    st.flushPendingKeys ⊆ result.2.flushPendingKeys ∧
      ∀ entry ∈ index, entry.1 < cutoff → ∀ key ∈ entry.2, st.Ready opiReady key →
        key ∈ result.2.flushPendingKeys ∧ key ∈ result.2.flushQueue

/-- The loop ends here: nothing is left that is old enough. -/
theorem Visited.done (h : Visited st opiReady before rest processed now new)
    (hrest : ∀ entry ∈ rest, cutoff ≤ entry.1) :
    Done st opiReady cutoff (before ++ rest) (processed, now) := by
  refine Or.inr ⟨?_, fun entry hentry hlt key hkey hready => ?_⟩
  · rw [h.state]
    exact Finset.subset_union_left
  rcases List.mem_append.mp hentry with hentry | hentry
  · have hnew := (h.ready key).mpr ⟨List.mem_flatMap.mpr ⟨entry, hentry, hkey⟩, hready⟩
    rw [h.state]
    exact ⟨Finset.mem_union_right _ (List.mem_toFinset.mpr hnew), List.mem_append_right _ hnew⟩
  · exact absurd hlt (not_lt.mpr (hrest entry hentry))

theorem flushRun_of_end {turns : ℕ} (h : now.flushTurn opiReady cutoff processed = none) :
    now.flushRun opiReady cutoff (turns + 1) processed = some (processed, now) := by
  simp only [AggState.flushRun, h]

theorem flushRun_of_turn {turns processed' : ℕ} {now' : AggState}
    (h : now.flushTurn opiReady cutoff processed = some (processed', now')) :
    now.flushRun opiReady cutoff (turns + 1) processed =
      now'.flushRun opiReady cutoff turns processed' := by
  simp only [AggState.flushRun, h]

/-- A turn that changes nothing is taken for ever. -/
theorem flushRun_of_fixed (h : now.flushTurn opiReady cutoff processed = some (processed, now))
    (turns : ℕ) : now.flushRun opiReady cutoff turns processed = none := by
  induction turns with
  | zero => rfl
  | succ turns ih => rw [flushRun_of_turn h, ih]

/-- A second whose keys all wait is taken off and put back. -/
theorem Visited.fixed {remaining : List BarKey}
    (h : Visited st opiReady before ((second, remaining) :: rest) processed now new)
    (hlimit : processed < flushStaleMaxKeys) (hcutoff : second < cutoff)
    (hsome : remaining ≠ []) (hwait : ∀ key ∈ remaining, st.Waiting opiReady key) :
    now.flushTurn opiReady cutoff processed = some (processed, now) := by
  obtain ⟨new', remaining', processed', hturn, hturned⟩ := h.turn hlimit hcutoff
  have hnone : new' = [] := by
    apply List.eq_nil_iff_forall_not_mem.mpr
    intro key hkey
    obtain ⟨hmem, ⟨-, bucket, hlookup, hready⟩, -⟩ := hturned.ready key hkey
    obtain ⟨-, bucket', hlookup', hwaits⟩ := hwait key hmem
    cases hlookup.symm.trans hlookup'
    rw [hready] at hwaits
    cases hwaits
  subst hnone
  have hcount : processed' = processed := hturned.count
  subst hcount
  obtain ⟨hremaining, -⟩ := hturned.all hlimit
  rw [List.filter_eq_self.mpr (fun key hkey => decide_eq_true (hwait key hkey))] at hremaining
  subst hremaining
  rw [hturn, List.append_nil, if_neg hsome, h.state]

/-- The loop ends unless it stalls. -/
theorem Visited.flushRun_cases (hsorted : rest.Pairwise fun e e' => e.1 < e'.1)
    (h : Visited st opiReady before rest processed now new)
    (hlimit : processed < flushStaleMaxKeys) :
    (Stalls st opiReady cutoff before rest ∧
      ∀ turns, now.flushRun opiReady cutoff turns processed = none) ∨
    (¬ Stalls st opiReady cutoff before rest ∧
      ∃ turns result, now.flushRun opiReady cutoff turns processed = some result ∧
        Done st opiReady cutoff (before ++ rest) result) := by
  induction rest generalizing before processed now new with
  | nil =>
    refine Or.inr ⟨?_, 1, (processed, now), flushRun_of_end ?_, h.done fun e he => ?_⟩
    · rintro ⟨mid, entry, after, heq, -⟩
      exact absurd heq.symm (by simp)
    · rw [h.state]
      unfold AggState.flushTurn
      rw [if_neg (not_le.mpr hlimit)]
    · cases he
  | cons entry rest ih =>
    obtain ⟨second, keys⟩ := entry
    obtain ⟨hlater, hsorted⟩ := List.pairwise_cons.mp hsorted
    by_cases hcutoff : second < cutoff
    · obtain ⟨new', remaining, processed', hturn, hturned⟩ := h.turn hlimit hcutoff
      by_cases hbelow : processed' < flushStaleMaxKeys
      · obtain ⟨hremaining, hvisited⟩ := hturned.all hbelow
        by_cases hwait : ∃ key ∈ keys, st.Waiting opiReady key
        · -- the waiting keys are put back and nothing changes any more
          left
          refine ⟨⟨[], (second, keys), rest, rfl, List.forall_mem_nil _, hcutoff, hwait, ?_⟩, ?_⟩
          · rw [List.append_nil, hvisited.card]
            exact hbelow
          · have hsome : remaining ≠ [] := by
              obtain ⟨key, hkey, hwaits⟩ := hwait
              rw [hremaining]
              exact List.ne_nil_of_mem (List.mem_filter.mpr ⟨hkey, decide_eq_true hwaits⟩)
            rw [if_neg hsome] at hvisited hturn
            have hall : ∀ key ∈ remaining, st.Waiting opiReady key := by
              intro key hkey
              rw [hremaining] at hkey
              exact of_decide_eq_true (List.mem_filter.mp hkey).2
            intro turns
            cases turns with
            | zero => rfl
            | succ turns =>
              rw [flushRun_of_turn hturn]
              exact flushRun_of_fixed (hvisited.fixed hbelow hcutoff hsome hall) turns
        · have hnone : remaining = [] := by
            rw [hremaining, List.filter_eq_nil_iff]
            intro key hkey hwaits
            exact hwait ⟨key, hkey, of_decide_eq_true hwaits⟩
          rw [if_pos hnone] at hvisited hturn
          -- a second without waiting keys is not where the loop stalls
          have hstalls : Stalls st opiReady cutoff (before ++ [(second, keys)]) rest ↔
              Stalls st opiReady cutoff before ((second, keys) :: rest) := by
            constructor
            · rintro ⟨mid, entry, after, heq, hmid, hentry⟩
              refine ⟨(second, keys) :: mid, entry, after, by rw [heq]; rfl, ?_, ?_⟩
              · exact List.forall_mem_cons.mpr ⟨hcutoff, hmid⟩
              · simpa using hentry
            · rintro ⟨mid, entry, after, heq, hmid, hlt, hwaits, hcard⟩
              cases mid with
              | nil =>
                obtain ⟨rfl, rfl⟩ := List.cons.inj heq
                exact absurd hwaits hwait
              | cons e mid =>
                obtain ⟨rfl, rfl⟩ := List.cons.inj heq
                exact ⟨mid, entry, after, rfl, fun e he => hmid e (List.mem_cons_of_mem _ he), hlt,
                  hwaits, by simpa using hcard⟩
          rw [← hstalls]
          refine (ih hsorted hvisited hbelow).imp ?_ ?_
          · rintro ⟨hstall, hnever⟩
            refine ⟨hstall, fun turns => ?_⟩
            cases turns with
            | zero => rfl
            | succ turns => rw [flushRun_of_turn hturn, hnever turns]
          · rintro ⟨hstall, turns, result, hrun, hdone⟩
            refine ⟨hstall, turns + 1, result, (flushRun_of_turn hturn).trans hrun, ?_⟩
            simpa using hdone
      · -- the limit is reached
        have hfull : flushStaleMaxKeys ≤ processed' := not_lt.mp hbelow
        right
        refine ⟨?_, 2, _, (flushRun_of_turn hturn).trans (flushRun_of_end ?_), Or.inl hfull⟩
        · rintro ⟨mid, entry, after, heq, -, -, -, hcard⟩
          have hmem : ∀ key ∈ (before ++ [(second, keys)]).flatMap (·.2),
              key ∈ (before ++ mid ++ [entry]).flatMap (·.2) := by
            cases mid with
            | nil =>
              obtain ⟨rfl, rfl⟩ := List.cons.inj heq
              intro key hkey
              rwa [List.append_nil]
            | cons e mid =>
              obtain ⟨rfl, rfl⟩ := List.cons.inj heq
              intro key hkey
              rw [List.flatMap_append, List.mem_append] at hkey
              simp only [List.flatMap_append, List.flatMap_cons, List.mem_append]
              refine Or.inl (hkey.imp_right fun hkey => Or.inl ?_)
              simpa using hkey
          have hqueued := hturned.card h
          have hle := @readyKeys_mono st opiReady _ _ hmem
          omega
        · unfold AggState.flushTurn
          rw [if_pos hfull]
    · refine Or.inr ⟨?_, 1, (processed, now), flushRun_of_end ?_, h.done ?_⟩
      · rintro ⟨mid, entry, after, heq, hmid, hlt, -⟩
        cases mid with
        | nil =>
          obtain ⟨rfl, rfl⟩ := List.cons.inj heq
          exact hcutoff hlt
        | cons e mid =>
          obtain ⟨rfl, rfl⟩ := List.cons.inj heq
          exact hcutoff (hmid _ List.mem_cons_self)
      · rw [h.state]
        unfold AggState.flushTurn
        rw [if_neg (not_le.mpr hlimit)]
        simp only
        rw [if_pos (not_lt.mp hcutoff)]
      · intro e he
        rcases List.mem_cons.mp he with rfl | he
        · exact not_lt.mp hcutoff
        · exact (not_lt.mp hcutoff).trans (hlater e he).le

/-! ## With a clock -/

/-- Readings that are left over do not show. -/
theorem flushKeys_clock (opiReady : Bool) (keys : List BarKey) {clock clock' : ℕ} (processed : ℕ)
    (st : AggState) (hclock : keys.length ≤ clock) (hclock' : keys.length ≤ clock') :
    (st.flushKeys opiReady keys clock processed).1 =
        (st.flushKeys opiReady keys clock' processed).1 ∧
      (st.flushKeys opiReady keys clock processed).2.2 =
        (st.flushKeys opiReady keys clock' processed).2.2 := by
  induction keys generalizing clock clock' processed st with
  | nil => exact ⟨rfl, rfl⟩
  | cons key rest ih =>
    rw [List.length_cons] at hclock hclock'
    obtain ⟨clock, rfl⟩ : ∃ c, clock = c + 1 := ⟨clock - 1, by omega⟩
    obtain ⟨clock', rfl⟩ : ∃ c, clock' = c + 1 := ⟨clock' - 1, by omega⟩
    have hrest := fun processed st =>
      @ih clock clock' processed st (Nat.le_of_succ_le_succ hclock)
        (Nat.le_of_succ_le_succ hclock')
    unfold AggState.flushKeys
    split
    · exact ⟨rfl, rfl⟩
    · simp only
      split
      · exact hrest processed st
      · split
        · exact hrest processed st
        · split
          · exact hrest _ _
          · obtain ⟨hremaining, hstate⟩ := hrest processed st
            exact ⟨congrArg (key :: ·) hremaining, hstate⟩

/-- With enough readings in time, the loop with a clock ends in the same state. -/
theorem flushStaleLoop_of_flushRun {turns : ℕ} {result : ℕ × AggState}
    (h : now.flushRun opiReady cutoff turns processed = some result) :
    ∃ enough, ∀ clock ≥ enough, ∀ turns' ≥ turns,
      AggState.flushStaleLoop opiReady cutoff turns' clock processed now = result.2 := by
  induction turns generalizing processed now with
  | zero => cases h
  | succ turns ih =>
    cases hturn : now.flushTurn opiReady cutoff processed with
    | none =>
      rw [flushRun_of_end hturn] at h
      cases h
      refine ⟨1, fun clock hclock turns' hturns' => ?_⟩
      obtain ⟨turns', rfl⟩ : ∃ n, turns' = n + 1 := ⟨turns' - 1, by omega⟩
      unfold AggState.flushTurn at hturn
      unfold AggState.flushStaleLoop
      by_cases hlimit : processed ≥ flushStaleMaxKeys
      · rw [if_pos (Or.inl hlimit)]
      · rw [if_neg hlimit] at hturn
        rw [if_neg (by omega)]
        cases hindex : now.bucketIndex with
        | nil => rfl
        | cons entry rest =>
          obtain ⟨second, keys⟩ := entry
          rw [hindex] at hturn
          simp only at hturn ⊢
          split at hturn
          · rename_i hcutoff
            rw [if_pos hcutoff]
          · cases hturn
    | some next =>
      obtain ⟨processed', now'⟩ := next
      rw [flushRun_of_turn hturn] at h
      obtain ⟨enough, hrest⟩ := ih h
      unfold AggState.flushTurn at hturn
      split at hturn
      · cases hturn
      · rename_i hlimit
        split at hturn
        · cases hturn
        · rename_i second keys rest hindex
          split at hturn
          · cases hturn
          · rename_i hcutoff
            refine ⟨enough + keys.length + 1, fun clock hclock turns' hturns' => ?_⟩
            obtain ⟨turns', rfl⟩ : ∃ n, turns' = n + 1 := ⟨turns' - 1, by omega⟩
            have hlong : keys.length ≤ clock - 1 := by omega
            have hsame := flushKeys_clock opiReady keys processed
              { now with bucketIndex := rest } (le_refl _) hlong
            obtain ⟨new, hnew⟩ := flushKeys_spec opiReady keys (clock - 1) processed
              { now with bucketIndex := rest } hlong
            unfold AggState.flushStaleLoop
            rw [if_neg (by omega), hindex]
            simp only
            rw [if_neg hcutoff]
            generalize AggState.flushKeys opiReady keys keys.length processed
              { now with bucketIndex := rest } = taken at hturn hsame
            generalize AggState.flushKeys opiReady keys (clock - 1) processed
              { now with bucketIndex := rest } = timed at hsame hnew
            obtain ⟨remaining, _, count, state⟩ := taken
            obtain ⟨remaining', clock', count', state'⟩ := timed
            obtain ⟨rfl, hstate⟩ := hsame
            cases hstate
            cases hturn
            have hleft : clock - 1 ≤ clock' + keys.length := hnew.clock
            exact hrest clock' (by omega) turns' (by omega)

/-! ## The whole call -/

/-- Seconds come in order, and every key stands under its own second. -/
structure IndexWf (index : List (ℤ × List BarKey)) : Prop where
  sorted : index.Pairwise fun e e' => e.1 < e'.1
  filed : ∀ entry ∈ index, ∀ key ∈ entry.2, key.2.2 = entry.1

/-- `flush_stale` returns with this number of queued keys and this state if its clock
never runs out. -/
def FlushStaleReturns (st : AggState) (opiReady : Bool) (result : ℕ × AggState) : Prop :=
  if st.currentTick ≤ 0 then result = (0, st)
  else ∃ turns, st.flushRun opiReady st.staleCutoff turns 0 = some result

/-- A call that returns without its clock returns the same with a clock that is slow enough. -/
theorem flushStale_of_returns {result : ℕ × AggState} (h : FlushStaleReturns st opiReady result) :
    ∃ enough, ∀ clock ≥ enough, st.flushStale opiReady clock = result.2 := by
  unfold FlushStaleReturns at h
  unfold AggState.flushStale
  split at h
  · rename_i htick
    refine ⟨0, fun clock _ => ?_⟩
    rw [if_pos htick, h]
  · rename_i htick
    obtain ⟨turns, hrun⟩ := h
    obtain ⟨enough, hloop⟩ := flushStaleLoop_of_flushRun hrun
    refine ⟨max enough turns, fun clock hclock => ?_⟩
    rw [if_neg htick]
    exact hloop clock (le_of_max_le_left hclock) clock (le_of_max_le_right hclock)

/-- The key is on the flush queue, or was before the call. -/
def Enqueued (st st' : AggState) (key : BarKey) : Prop :=
  key ∈ st'.flushPendingKeys ∧ (key ∈ st.flushPendingKeys ∨ key ∈ st'.flushQueue)

/-- The call returns, and what is ready and old enough is queued up to the limit. -/
def FlushStaleSettles (st : AggState) (opiReady : Bool) : Prop :=
  ∃ result, FlushStaleReturns st opiReady result ∧
    (flushStaleMaxKeys ≤ result.1 ∨
      ∀ entry ∈ st.bucketIndex, entry.1 ≤ st.staleCutoff → ∀ key ∈ entry.2, ∀ bucket,
        st.buckets.lookup key = some bucket → st.shouldFlushBucket key bucket opiReady = true →
          Enqueued st result.2 key)

/-- Enough keys are ready up to each second that keeps a key back. -/
def FillsUp (st : AggState) (opiReady : Bool) : Prop :=
  ∀ entry ∈ st.bucketIndex, entry.1 < st.staleCutoff → (∃ key ∈ entry.2, st.Waiting opiReady key) →
    flushStaleMaxKeys ≤ (st.readyKeys opiReady
      ((st.bucketIndex.flatMap (·.2)).filter fun key => key.2.2 ≤ entry.1)).card

theorem extraBuffer_nonneg (tokenMap : PairKey → Option String) (lastSeen : String → Option ℤ)
    (key : BarKey) : 0 ≤ AggState.extraBuffer tokenMap lastSeen key := by
  unfold AggState.extraBuffer
  split
  · split
    · exact le_max_left _ _
    · exact le_refl _
  · exact le_refl _

/-- What may be flushed is older than the cutoff. -/
theorem lt_staleCutoff_of_shouldFlush {key : BarKey} {bucket : PairBucket}
    (h : st.shouldFlushBucket key bucket opiReady = true) : key.2.2 < st.staleCutoff := by
  unfold AggState.shouldFlushBucket at h
  split at h
  · cases h
  · have hlt := of_decide_eq_true h
    have hpm : 0 ≤ if bucket.pm.isNone = true then
        AggState.extraBuffer st.pmTokenMap st.lastSeenPm key else 0 := by
      split
      · exact extraBuffer_nonneg _ _ _
      · exact le_refl _
    have hmax := hpm.trans (le_max_left _ (if bucket.opi.isNone = true ∧ opiReady = true then
      AggState.extraBuffer st.opiTokenMap st.lastSeenOpi key else 0))
    unfold AggState.staleCutoff
    omega

/-- In a well-formed index, what is ready up to a second stands in the seconds up to it. -/
theorem stalls_iff (hindex : IndexWf st.bucketIndex) :
    Stalls st opiReady st.staleCutoff [] st.bucketIndex ↔ ¬ FillsUp st opiReady := by
  have hupto : ∀ mid entry after, st.bucketIndex = mid ++ entry :: after →
      st.readyKeys opiReady ((mid ++ [entry]).flatMap (·.2)) =
        st.readyKeys opiReady
          ((st.bucketIndex.flatMap (·.2)).filter fun key => key.2.2 ≤ entry.1) := by
    intro mid entry after hsplit
    have hsorted := hindex.sorted
    rw [hsplit, List.pairwise_append, List.pairwise_cons] at hsorted
    obtain ⟨-, ⟨hafter, -⟩, hmid⟩ := hsorted
    ext key
    simp only [mem_readyKeys, List.mem_filter, List.mem_flatMap, decide_eq_true_eq]
    refine and_congr_left fun _ => ⟨?_, ?_⟩
    · rintro ⟨e, he, hkey⟩
      have hmem : e ∈ st.bucketIndex := by
        rw [hsplit]
        rcases List.mem_append.mp he with he | he
        · exact List.mem_append_left _ he
        · rw [List.mem_singleton.mp he]
          exact List.mem_append_right _ List.mem_cons_self
      refine ⟨⟨e, hmem, hkey⟩, ?_⟩
      rw [hindex.filed e hmem key hkey]
      rcases List.mem_append.mp he with he | he
      · exact (hmid e he entry List.mem_cons_self).le
      · rw [List.mem_singleton.mp he]
    · rintro ⟨⟨e, he, hkey⟩, hle⟩
      rw [hindex.filed e he key hkey] at hle
      refine ⟨e, ?_, hkey⟩
      rw [hsplit] at he
      rcases List.mem_append.mp he with he | he
      · exact List.mem_append_left _ he
      · rcases List.mem_cons.mp he with rfl | he
        · exact List.mem_append_right _ List.mem_cons_self
        · exact absurd (hafter e he) (not_lt.mpr hle)
  constructor
  · rintro ⟨mid, entry, after, hsplit, -, hlt, hwait, hcard⟩ hfills
    have hmem : entry ∈ st.bucketIndex := by
      rw [hsplit]
      exact List.mem_append_right _ List.mem_cons_self
    have hmany := hfills entry hmem hlt hwait
    rw [← hupto mid entry after hsplit] at hmany
    rw [List.nil_append] at hcard
    omega
  · intro hnot
    unfold FillsUp at hnot
    push Not at hnot
    obtain ⟨entry, hentry, hlt, hwait, hcard⟩ := hnot
    obtain ⟨mid, after, hsplit⟩ := List.append_of_mem hentry
    refine ⟨mid, entry, after, hsplit, ?_, hlt, hwait, ?_⟩
    · have hsorted := hindex.sorted
      rw [hsplit, List.pairwise_append] at hsorted
      exact fun e he => (hsorted.2.2 e he entry List.mem_cons_self).trans hlt
    · rw [List.nil_append, hupto mid entry after hsplit]
      exact hcard

theorem visited_start (st : AggState) (opiReady : Bool) :
    Visited st opiReady [] st.bucketIndex 0 st [] where
  state := by rw [queued_nil]
  count := rfl
  nodup := List.nodup_nil
  ready key := ⟨fun hkey => absurd hkey List.not_mem_nil, fun hkey => absurd hkey.1 List.not_mem_nil⟩

/-- The call comes to its end, with everything that is ready and old enough queued up to
the limit, exactly when enough keys are ready up to each second that keeps a key back. -/
theorem flushStale_settles_iff (hindex : IndexWf st.bucketIndex) :
    FlushStaleSettles st opiReady ↔ st.currentTick ≤ 0 ∨ FillsUp st opiReady := by
  by_cases htick : st.currentTick ≤ 0
  · have hreturns : FlushStaleReturns st opiReady (0, st) := by
      unfold FlushStaleReturns
      rw [if_pos htick]
    refine iff_of_true ⟨(0, st), hreturns, Or.inr ?_⟩ (Or.inl htick)
    intro entry _ _ key _ bucket _ hflush
    unfold AggState.shouldFlushBucket at hflush
    rw [if_pos htick] at hflush
    cases hflush
  · have hcases := @Visited.flushRun_cases st opiReady [] st.bucketIndex 0 st [] st.staleCutoff
      hindex.sorted (visited_start st opiReady) (by decide)
    rw [stalls_iff hindex, not_not] at hcases
    constructor
    · rintro ⟨result, hreturns, -⟩
      unfold FlushStaleReturns at hreturns
      rw [if_neg htick] at hreturns
      obtain ⟨turns, hrun⟩ := hreturns
      rcases hcases with ⟨-, hnever⟩ | ⟨hfills, -⟩
      · rw [hnever turns] at hrun
        cases hrun
      · exact Or.inr hfills
    · intro h
      rcases hcases with ⟨hnot, -⟩ | ⟨-, turns, result, hrun, hdone⟩
      · exact absurd (h.resolve_left htick) hnot
      · refine ⟨result, ?_, ?_⟩
        · unfold FlushStaleReturns
          rw [if_neg htick]
          exact ⟨turns, hrun⟩
        · rcases hdone with hlimit | ⟨hkept, hall⟩
          · exact Or.inl hlimit
          · refine Or.inr fun entry hentry hle key hkey bucket hbucket hflush => ?_
            have hlt := lt_staleCutoff_of_shouldFlush hflush
            rw [hindex.filed entry hentry key hkey] at hlt
            by_cases hpending : key ∈ st.flushPendingKeys
            · exact ⟨hkept hpending, Or.inl hpending⟩
            · obtain ⟨hnow, hqueue⟩ :=
                hall entry hentry hlt key hkey ⟨hpending, bucket, hbucket, hflush⟩
              exact ⟨hnow, Or.inr hqueue⟩

instance : Decidable (FillsUp st opiReady) :=
  inferInstanceAs (Decidable (∀ entry ∈ st.bucketIndex, entry.1 < st.staleCutoff →
    (∃ key ∈ entry.2, st.Waiting opiReady key) → _ ≤ _))

/-! ## A second that keeps a key back -/

/-- The Polymarket bar of another pair, one second later. -/
def pmOther : PairInput :=
  { pmSecond with pairId := 8, barSecond := 101, tokenKey := "pm-8-yes" }

/-- The Opinion token of the first pair is ahead of the Polymarket one. -/
def opiAhead : PairInput := { opiSecond with barSecond := 109 }

/-- What the aggregator holds when tick 110 starts to flush, after these bars. -/
def atTick110 (inputs : List PairInput) : AggState :=
  { inputs.foldl (fun st input => (st.handleTokenBar input).1) (AggState.start 2) with
    currentTick := 110 }

/-- Two seconds that are ready are both queued. -/
theorem flushStale_settles_two :
    FlushStaleSettles (atTick110 [pmSecond, pmOther]) true ∧
      (atTick110 [pmSecond, pmOther]).Ready true pmSecond.key := by
  have hindex : IndexWf (atTick110 [pmSecond, pmOther]).bucketIndex :=
    ⟨by decide +kernel, by decide +kernel⟩
  exact ⟨(flushStale_settles_iff hindex).mpr (Or.inr (by decide +kernel)), by decide +kernel⟩

/-- The first second waits for its Opinion half, and the loop takes it off and puts it back
for ever; the second behind it is ready and is not reached. -/
theorem flushStale_never_settles :
    (aggMachine true 2).run (AggSystem.start 2)
        [.tokenBar opiAhead noContext, .tokenBar pmSecond noContext,
          .tokenBar pmOther noContext] =
      some { AggSystem.start 2 with
        agg := { atTick110 [opiAhead, pmSecond, pmOther] with currentTick := 0 } } ∧
      (atTick110 [opiAhead, pmSecond, pmOther]).Ready true pmOther.key ∧
      ¬ FlushStaleSettles (atTick110 [opiAhead, pmSecond, pmOther]) true := by
  refine ⟨rfl, by decide +kernel, ?_⟩
  have hindex : IndexWf (atTick110 [opiAhead, pmSecond, pmOther]).bucketIndex :=
    ⟨by decide +kernel, by decide +kernel⟩
  rw [flushStale_settles_iff hindex]
  decide +kernel

end AlphaMonitor.Pair
