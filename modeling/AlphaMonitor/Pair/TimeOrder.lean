import AlphaMonitor.Lib.Turns
import AlphaMonitor.Pair.Confluence

/-!
# The order in which pair bars are built and sent

The aggregator builds a second as soon as both halves are there, the flush worker builds what
a tick has found stale.  Either takes the lock of the state for each step of its own, and sends
what it has built without the lock, first to the database queue and then to the trade engine.

## Main definitions

- `emitMachine`: aggregator and worker, one lock or one send at a time
- `EmitSystem.KeepsOrder`: a step that lets no later second of a pair go first

## Main results

- `pair_bars_in_time_order`: with such steps only, the rows of a pair come in order
- `complete_second_overtakes`: a complete second goes before an older one that waits
-/

namespace AlphaMonitor.Pair

open AlphaMonitor.Lib

/-! ## The machine -/

/-- Who builds and sends rows. -/
inductive EmitTask where
  | aggregator
  | flushWorker
  deriving DecidableEq, Repr

/-- A row on its way out of a task. -/
inductive Sending where
  | idle
  /-- `try_send_db` is next, then `try_send_trade`. -/
  | db (row : Bars1sPair)
  /-- `try_send_trade` is next. -/
  | trade (row : Bars1sPair)
  deriving DecidableEq, Repr

structure EmitSystem where
  agg : AggState
  /-- The complete bucket that the aggregator has taken out and not built yet. -/
  ready : Option (BarKey × PairBucket)
  /-- Keys the flush worker has drained and not handled yet. -/
  drained : List BarKey
  sending : EmitTask → Sending
  /-- Every row that was built, that reached the database queue and that reached the trade
  engine, each in order. -/
  (built db trade : List Bars1sPair)

inductive EmitEvent where
  /-- The aggregator puts a bar into its bucket, under the first lock. -/
  | tokenBar (input : PairInput)
  /-- The aggregator builds the complete bucket, under the second lock. -/
  | buildReady (env : BuildInputs)
  | tick (barSecond : ℤ) (opiReady : Bool) (clock : ℕ)
  /-- The worker drains the flush queue. -/
  | drain (clock : ℕ)
  /-- The worker handles its next key. -/
  | build (env : BuildInputs)
  /-- A task sends its row to the next receiver, which may be full. -/
  | send (task : EmitTask) (taken : Bool)

namespace EmitSystem

def start (lateArrivalBufferS : ℤ) : EmitSystem where
  agg := AggState.start lateArrivalBufferS
  ready := none
  drained := []
  sending := fun _ => .idle
  built := []
  db := []
  trade := []

/-- The aggregator is between two messages. -/
def AggregatorIdle (s : EmitSystem) : Prop := s.ready = none ∧ s.sending .aggregator = .idle

instance (s : EmitSystem) : Decidable s.AggregatorIdle :=
  inferInstanceAs (Decidable (s.ready = none ∧ s.sending .aggregator = .idle))

/-- A row is built, and its task will send it. -/
def hold (s : EmitSystem) (task : EmitTask) (row : Bars1sPair) : EmitSystem :=
  { s with
    sending := Function.update s.sending task (.db row)
    built := s.built ++ [row] }

/-- One step of one task; rows go to the database only if `captureEnabled`. -/
def step (captureEnabled : Bool) (s : EmitSystem) : EmitEvent → Option EmitSystem
  | .tokenBar input =>
    if s.AggregatorIdle then
      -- a complete bucket is out of the map before its row is built
      let (agg, ready) := s.agg.handleTokenBar input
      some { s with agg := agg, ready := ready.map fun bucket => (input.key, bucket) }
    else none
  | .buildReady env =>
    match s.ready with
    | some (key, bucket) =>
      some (hold { s with ready := none } .aggregator
        (buildBarWithContext key bucket env.ctx env.stats env.opiReady))
    | none => none
  | .tick barSecond opiReady clock =>
    if s.AggregatorIdle then some { s with agg := s.agg.handleTick barSecond opiReady clock }
    else none
  | .drain clock =>
    if s.drained = [] ∧ s.sending .flushWorker = .idle then
      let (keys, agg) := s.agg.drainFlushQueue clock
      some { s with agg := agg, drained := keys }
    else none
  | .build env =>
    match s.drained, s.sending .flushWorker with
    | key :: rest, .idle =>
      match s.agg.buckets.lookup key with
      -- the aggregator has completed the bucket meanwhile
      | none => some { s with drained := rest }
      | some bucket =>
        some (hold { s with
          agg := { s.agg with buckets := s.agg.buckets.erase key }
          drained := rest } .flushWorker
          (buildBarWithContext key bucket env.ctx env.stats env.opiReady))
    | _, _ => none
  | .send task taken =>
    match s.sending task with
    | .idle => none
    | .db row =>
      some { s with
        sending := Function.update s.sending task (.trade row)
        db := if captureEnabled then s.db ++ [row] else s.db }
    | .trade row =>
      some { s with
        sending := Function.update s.sending task .idle
        trade := if taken then s.trade ++ [row] else s.trade }

end EmitSystem

def emitMachine (captureEnabled : Bool) : Machine EmitSystem EmitEvent where
  init s := ∃ lateArrivalBufferS, s = EmitSystem.start lateArrivalBufferS
  step := EmitSystem.step captureEnabled

/-! ## What waits where -/

/-- The pair and side of a row. -/
def lane (key : BarKey) : PairKey := (key.1, key.2.1)

/-- The second of a row. -/
def second (key : BarKey) : ℤ := key.2.2

theorem key_eq {a b : BarKey} (hlane : lane a = lane b) (hsecond : second a = second b) : a = b := by
  obtain ⟨hpair, hside⟩ := Prod.mk.inj hlane
  exact Prod.ext hpair (Prod.ext hside hsecond)

/-- What a task has still to send to the database queue. -/
def Sending.forDb : Sending → List BarKey
  | .db row => [row.key]
  | .idle | .trade _ => []

/-- What a task has still to send to the trade engine. -/
def Sending.forTrade : Sending → List BarKey
  | .db row | .trade row => [row.key]
  | .idle => []

namespace EmitSystem

variable (s : EmitSystem)

/-- The seconds that are not built yet. -/
def unbuilt : List BarKey := s.agg.buckets.keys ++ (s.ready.map Prod.fst).toList

def unsentDb : List BarKey := (s.sending .aggregator).forDb ++ (s.sending .flushWorker).forDb

def unsentTrade : List BarKey :=
  (s.sending .aggregator).forTrade ++ (s.sending .flushWorker).forTrade

/-- No bar comes for a second that is not later than what is built already, and nothing is built
or sent while an older second of its pair and side waits for the same. -/
def KeepsOrder (captureEnabled : Bool) : EmitEvent → Prop
  | .tokenBar input =>
    ∀ row ∈ s.built, lane row.key = lane input.key → second row.key < second input.key
  | .buildReady _ => ∀ ready ∈ s.ready, IsNext lane second s.unbuilt ready.1
  | .build _ => ∀ key ∈ s.drained.head?, key ∈ s.agg.buckets → IsNext lane second s.unbuilt key
  | .send task taken =>
    match s.sending task with
    | .idle => True
    | .db row => captureEnabled = true → IsNext lane second s.unsentDb row.key
    | .trade row => taken = true → IsNext lane second s.unsentTrade row.key
  | .tick .. | .drain _ => True

end EmitSystem

/-- For every pair and side the seconds are strictly increasing. -/
def InTimeOrderByPair (rows : List Bars1sPair) : Prop :=
  rows.Pairwise fun a b =>
    a.pairId = b.pairId ∧ a.tokenSide = b.tokenSide → a.barSecond < b.barSecond

/-! ## The invariant -/

/-- At each of the three gates the rows of a pair and side have passed in order, and what waits
there is later.  No row is held by both tasks. -/
structure EmitInv (s : EmitSystem) : Prop where
  built : InTurn lane second s.unbuilt (s.built.map Bars1sPair.key)
  db : InTurn lane second s.unsentDb (s.db.map Bars1sPair.key)
  trade : InTurn lane second s.unsentTrade (s.trade.map Bars1sPair.key)
  dbBuilt : ∀ key ∈ s.db.map Bars1sPair.key, key ∈ s.built.map Bars1sPair.key
  tradeBuilt : ∀ key ∈ s.trade.map Bars1sPair.key, key ∈ s.built.map Bars1sPair.key
  held : ∀ key ∈ s.unsentTrade, key ∈ s.built.map Bars1sPair.key
  distinct : ∀ task task' key, key ∈ (s.sending task).forTrade →
    key ∈ (s.sending task').forTrade → task = task'
  takenOut : ∀ ready ∈ s.ready, ready.1 ∉ s.agg.buckets
  busy : s.ready ≠ none → s.sending .aggregator = .idle

section

variable {s s₀ s' : EmitSystem} {captureEnabled : Bool}

theorem mem_unsentDb {key : BarKey} :
    key ∈ s.unsentDb ↔ ∃ task, key ∈ (s.sending task).forDb := by
  unfold EmitSystem.unsentDb
  rw [List.mem_append]
  constructor
  · rintro (h | h)
    · exact ⟨.aggregator, h⟩
    · exact ⟨.flushWorker, h⟩
  · rintro ⟨task, h⟩
    cases task with
    | aggregator => exact Or.inl h
    | flushWorker => exact Or.inr h

theorem mem_unsentTrade {key : BarKey} :
    key ∈ s.unsentTrade ↔ ∃ task, key ∈ (s.sending task).forTrade := by
  unfold EmitSystem.unsentTrade
  rw [List.mem_append]
  constructor
  · rintro (h | h)
    · exact ⟨.aggregator, h⟩
    · exact ⟨.flushWorker, h⟩
  · rintro ⟨task, h⟩
    cases task with
    | aggregator => exact Or.inl h
    | flushWorker => exact Or.inr h

theorem mem_unbuilt {key : BarKey} :
    key ∈ s.unbuilt ↔ key ∈ s.agg.buckets ∨ ∃ ready ∈ s.ready, ready.1 = key := by
  unfold EmitSystem.unbuilt
  rw [List.mem_append, ← AList.mem_keys]
  simp

/-- What goes to the database queue next goes to the trade engine after that. -/
theorem Sending.forTrade_of_forDb {sending : Sending} {key : BarKey} (h : key ∈ sending.forDb) :
    key ∈ sending.forTrade := by
  cases sending with
  | idle => cases h
  | db row => exact h
  | trade row => cases h

theorem emitInv_start (lateArrivalBufferS : ℤ) : EmitInv (EmitSystem.start lateArrivalBufferS) where
  built := InTurn.nil
  db := InTurn.nil
  trade := InTurn.nil
  dbBuilt := List.forall_mem_nil _
  tradeBuilt := List.forall_mem_nil _
  held := List.forall_mem_nil _
  distinct _ _ _ h := absurd h List.not_mem_nil
  takenOut _ h := by cases h
  busy h := absurd rfl h

/-- The next second of a pair and side is built by a task that is idle. -/
theorem emitInv_hold (h : EmitInv s) {task : EmitTask} {row : Bars1sPair}
    (hsending : s₀.sending = s.sending) (hbuilt : s₀.built = s.built) (hdb : s₀.db = s.db)
    (htrade : s₀.trade = s.trade) (hidle : s.sending task = .idle) (hk : row.key ∈ s.unbuilt)
    (hnext : IsNext lane second s.unbuilt row.key)
    (hrest : ∀ o ∈ s₀.unbuilt, o ∈ s.unbuilt ∧ o ≠ row.key)
    (hready : ∀ ready ∈ s₀.ready, ready.1 ∉ s₀.agg.buckets)
    (hbusy : s₀.ready ≠ none → task ≠ .aggregator ∧ s₀.sending .aggregator = .idle) :
    EmitInv (s₀.hold task row) := by
  -- the row is new: what is built does not wait to be built
  have hnew : row.key ∉ s.built.map Bars1sPair.key := fun hmem => h.built.notMem hmem hk
  have hlater : ∀ rows : List Bars1sPair,
      (∀ o ∈ rows.map Bars1sPair.key, o ∈ s.built.map Bars1sPair.key) →
      ∀ o ∈ rows.map Bars1sPair.key, lane o = lane row.key → second o < second row.key :=
    fun rows hrows o ho => h.built.behind _ hk o (hrows o ho)
  -- only the task itself has something new to send
  have hother : ∀ t, t ≠ task → (s₀.hold task row).sending t = s.sending t := by
    intro t ht
    show Function.update s₀.sending task (.db row) t = _
    rw [Function.update_of_ne ht, hsending]
  have hself : (s₀.hold task row).sending task = .db row := Function.update_self _ _ _
  have hheld : ∀ t key, key ∈ ((s₀.hold task row).sending t).forTrade →
      t = task ∧ key = row.key ∨ t ≠ task ∧ key ∈ (s.sending t).forTrade := by
    intro t key hkey
    by_cases ht : t = task
    · subst ht
      rw [hself] at hkey
      exact Or.inl ⟨rfl, List.mem_singleton.mp hkey⟩
    · rw [hother t ht] at hkey
      exact Or.inr ⟨ht, hkey⟩
  have hmap : (s₀.hold task row).built.map Bars1sPair.key =
      s.built.map Bars1sPair.key ++ [row.key] := by
    show (s₀.built ++ [row]).map _ = _
    rw [hbuilt, List.map_append]
    rfl
  refine ⟨?_, ?_, ?_, ?_, ?_, ?_, ?_, hready, ?_⟩
  · rw [hmap]
    exact h.built.pass (fun _ _ => key_eq) hk hnext hrest
  · -- at the gate of the database only the new row has joined what waits
    show InTurn lane second _ (s₀.db.map _)
    rw [hdb]
    refine h.db.wait fun key hkey => ?_
    obtain ⟨t, ht⟩ := mem_unsentDb.mp hkey
    by_cases htask : t = task
    · subst htask
      rw [hself] at ht
      rw [List.mem_singleton.mp ht]
      exact Or.inr (hlater s.db h.dbBuilt)
    · rw [hother t htask] at ht
      exact Or.inl (mem_unsentDb.mpr ⟨t, ht⟩)
  · show InTurn lane second _ (s₀.trade.map _)
    rw [htrade]
    refine h.trade.wait fun key hkey => ?_
    obtain ⟨t, ht⟩ := mem_unsentTrade.mp hkey
    rcases hheld t key ht with ⟨-, rfl⟩ | ⟨-, hold⟩
    · exact Or.inr (hlater s.trade h.tradeBuilt)
    · exact Or.inl (mem_unsentTrade.mpr ⟨t, hold⟩)
  · intro key hkey
    rw [hmap]
    exact List.mem_append_left _ (h.dbBuilt key (hdb ▸ hkey))
  · -- the last gate has let nothing through yet that was not built before
    intro key hkey
    rw [hmap]
    exact List.mem_append_left _ (h.tradeBuilt key (htrade ▸ hkey))
  · intro key hkey
    rw [hmap]
    obtain ⟨t, ht⟩ := mem_unsentTrade.mp hkey
    rcases hheld t key ht with ⟨-, rfl⟩ | ⟨-, hold⟩
    · exact List.mem_append_right _ (List.mem_singleton_self _)
    · exact List.mem_append_left _ (h.held key (mem_unsentTrade.mpr ⟨t, hold⟩))
  · intro t t' key ht ht'
    rcases hheld t key ht with ⟨rfl, rfl⟩ | ⟨hne, hold⟩
    · rcases hheld t' _ ht' with ⟨heq, -⟩ | ⟨-, hold'⟩
      · exact heq.symm
      · exact absurd (h.held _ (mem_unsentTrade.mpr ⟨t', hold'⟩)) hnew
    · rcases hheld t' _ ht' with ⟨-, rfl⟩ | ⟨-, hold'⟩
      · exact absurd (h.held _ (mem_unsentTrade.mpr ⟨t, hold⟩)) hnew
      · exact h.distinct t t' key hold hold'
  · intro hne
    obtain ⟨htask, haggregator⟩ := hbusy hne
    rw [hother _ htask.symm, ← hsending]
    exact haggregator

/-- The state of the buckets changes, nothing is built or sent. -/
theorem emitInv_agg (h : EmitInv s) {agg : AggState} {ready : Option (BarKey × PairBucket)}
    {drained : List BarKey}
    (hunbuilt : ∀ key ∈ EmitSystem.unbuilt { s with agg := agg, ready := ready, drained := drained },
      key ∈ s.unbuilt ∨ ∀ o ∈ s.built.map Bars1sPair.key, lane o = lane key → second o < second key)
    (hready : ∀ r ∈ ready, r.1 ∉ agg.buckets)
    (hbusy : ready ≠ none → s.sending .aggregator = .idle) :
    EmitInv { s with agg := agg, ready := ready, drained := drained } where
  built := h.built.wait hunbuilt
  db := h.db
  trade := h.trade
  dbBuilt := h.dbBuilt
  tradeBuilt := h.tradeBuilt
  held := h.held
  distinct := h.distinct
  takenOut := hready
  busy := hbusy

/-- Flags and queues of the aggregator change, its buckets do not. -/
theorem emitInv_sameBuckets (h : EmitInv s) {agg : AggState} (drained : List BarKey)
    (hbuckets : agg.buckets = s.agg.buckets) :
    EmitInv { s with agg := agg, drained := drained } := by
  refine emitInv_agg h (fun key hkey => Or.inl ?_) ?_ h.busy
  · rcases mem_unbuilt.mp hkey with hmem | hready
    · exact mem_unbuilt.mpr (Or.inl (hbuckets ▸ hmem))
    · exact mem_unbuilt.mpr (Or.inr hready)
  · rw [hbuckets]
    exact h.takenOut

theorem emitInv_tokenBar (h : EmitInv s) {input : PairInput}
    (hkeeps : s.KeepsOrder captureEnabled (.tokenBar input))
    (hs : s.step captureEnabled (.tokenBar input) = some s') : EmitInv s' := by
  simp only [EmitSystem.step] at hs
  split at hs
  · rename_i hidle
    cases hs
    have hlater : ∀ o ∈ s.built.map Bars1sPair.key, lane o = lane input.key →
        second o < second input.key := by
      intro o ho
      obtain ⟨row, hrow, rfl⟩ := List.mem_map.mp ho
      exact hkeeps row hrow
    refine emitInv_agg h ?_ ?_ fun _ => hidle.2
    · intro key hkey
      -- whatever waits now was there before or is the second of the bar
      have hold : key ∈ s.unbuilt ∨ key = input.key := by
        -- the bar completed its bucket, which was taken out, or the bucket is stored
        rcases handleTokenBar_cases s.agg input with ⟨hready, hbuckets⟩ | ⟨hready, hbuckets⟩
        · rcases mem_unbuilt.mp hkey with hmem | ⟨ready, hmem, rfl⟩
          · rw [hbuckets] at hmem
            exact Or.inl (mem_unbuilt.mpr (Or.inl (AList.mem_erase.mp hmem).2))
          · rw [hready] at hmem
            cases hmem
            exact Or.inr rfl
        · rcases mem_unbuilt.mp hkey with hmem | ⟨ready, hmem, rfl⟩
          · rw [hbuckets] at hmem
            rcases (AList.mem_insert _).mp hmem with heq | hmem
            · exact Or.inr heq
            · exact Or.inl (mem_unbuilt.mpr (Or.inl hmem))
          · rw [hready] at hmem
            cases hmem
      rcases hold with hold | rfl
      · exact Or.inl hold
      · exact Or.inr hlater
    · intro ready hmem
      rcases handleTokenBar_cases s.agg input with ⟨hready, hbuckets⟩ | ⟨hready, hbuckets⟩
      · rw [hready] at hmem
        cases hmem
        rw [hbuckets]
        exact fun hin => (AList.mem_erase.mp hin).1 rfl
      · rw [hready] at hmem
        cases hmem
  · cases hs

theorem emitInv_buildReady (h : EmitInv s) {env : BuildInputs}
    (hkeeps : s.KeepsOrder captureEnabled (.buildReady env))
    (hs : s.step captureEnabled (.buildReady env) = some s') : EmitInv s' := by
  simp only [EmitSystem.step] at hs
  split at hs
  · rename_i key bucket hready
    cases hs
    -- the bucket was taken out when it was completed, so its key waits only here
    have hmem : (key, bucket) ∈ s.ready := Option.mem_def.mpr hready
    have hgone := h.takenOut _ hmem
    have hrow : (buildBarWithContext key bucket env.ctx env.stats env.opiReady).key = key :=
      buildBarWithContext_key key bucket env.ctx env.stats env.opiReady
    apply @emitInv_hold s
    · exact h
    · rfl
    · rfl
    · rfl
    · rfl
    · exact h.busy (by rw [hready]; exact Option.some_ne_none _)
    · rw [hrow]
      exact mem_unbuilt.mpr (Or.inr ⟨_, hmem, rfl⟩)
    · rw [hrow]
      exact hkeeps _ hmem
    · intro o ho
      rcases mem_unbuilt.mp ho with hbucket | ⟨ready, hnone, -⟩
      · refine ⟨mem_unbuilt.mpr (Or.inl hbucket), ?_⟩
        rw [hrow]
        rintro rfl
        exact hgone hbucket
      · cases hnone
    · intro ready hnone
      cases hnone
    · exact fun hne => absurd rfl hne
  · cases hs

theorem emitInv_build (h : EmitInv s) {env : BuildInputs}
    (hkeeps : s.KeepsOrder captureEnabled (.build env))
    (hs : s.step captureEnabled (.build env) = some s') : EmitInv s' := by
  simp only [EmitSystem.step] at hs
  split at hs
  · rename_i key rest hdrained hidle
    split at hs
    · -- nothing is left to build under this key
      cases hs
      exact emitInv_agg h (fun key hkey => Or.inl hkey) h.takenOut h.busy
    · rename_i bucket hlookup
      cases hs
      have hmem : key ∈ s.agg.buckets := by
        rw [← AList.lookup_isSome, hlookup]
        rfl
      have hrow : (buildBarWithContext key bucket env.ctx env.stats env.opiReady).key = key :=
        buildBarWithContext_key key bucket env.ctx env.stats env.opiReady
      apply @emitInv_hold s
      · exact h
      · rfl
      · rfl
      · rfl
      · rfl
      · exact hidle
      · rw [hrow]
        exact mem_unbuilt.mpr (Or.inl hmem)
      · rw [hrow]
        refine hkeeps key ?_ hmem
        rw [hdrained]
        rfl
      · -- what still waits was there before, and under another key
        intro o ho
        rw [hrow]
        rcases mem_unbuilt.mp ho with hbucket | ⟨ready, hready, rfl⟩
        · obtain ⟨hne, hbucket⟩ := AList.mem_erase.mp hbucket
          exact ⟨mem_unbuilt.mpr (Or.inl hbucket), hne⟩
        · refine ⟨mem_unbuilt.mpr (Or.inr ⟨ready, hready, rfl⟩), fun heq => ?_⟩
          exact h.takenOut ready hready (heq ▸ hmem)
      · intro ready hready hbucket
        exact h.takenOut ready hready (AList.mem_erase.mp hbucket).2
      · exact fun hne => ⟨by decide, h.busy hne⟩
  · cases hs

/-- A row passes a gate, or is not taken there. -/
theorem inTurn_sent {waiting waiting' : List BarKey} {rows : List Bars1sPair} {row : Bars1sPair}
    {taken : Bool} (h : InTurn lane second waiting (rows.map Bars1sPair.key))
    (hrow : row.key ∈ waiting) (hnext : taken = true → IsNext lane second waiting row.key)
    (hrest : ∀ o ∈ waiting', o ∈ waiting ∧ o ≠ row.key) :
    InTurn lane second waiting'
      ((if taken then rows ++ [row] else rows).map Bars1sPair.key) := by
  cases taken with
  -- a row that is not taken is lost, so those behind it are still in order
  | false => exact h.wait fun key hkey => Or.inl (hrest key hkey).1
  | true =>
    show InTurn lane second _ ((rows ++ [row]).map Bars1sPair.key)
    rw [List.map_append]
    exact h.pass (fun _ _ => key_eq) hrow (hnext rfl) hrest

theorem mem_sent {rows : List Bars1sPair} {row : Bars1sPair} {taken : Bool} {key : BarKey}
    (h : key ∈ (if taken then rows ++ [row] else rows).map Bars1sPair.key) :
    key ∈ rows.map Bars1sPair.key ∨ key = row.key := by
  cases taken with
  | false => exact Or.inl h
  | true =>
    rw [if_pos rfl, List.map_append] at h
    exact (List.mem_append.mp h).imp_right List.mem_singleton.mp

/-- A task that has nothing left to send leaves the other task's rows. -/
theorem mem_cleared {sending : EmitTask → Sending} {task t : EmitTask} {next : Sending}
    {rows : Sending → List BarKey} (hnext : rows next = []) {key : BarKey}
    (h : key ∈ rows (Function.update sending task next t)) : t ≠ task ∧ key ∈ rows (sending t) := by
  by_cases ht : t = task
  · subst ht
    rw [Function.update_self, hnext] at h
    cases h
  · rw [Function.update_of_ne ht] at h
    exact ⟨ht, h⟩

/-- The task that sends is the aggregator only if it has no bucket taken out. -/
theorem busy_update (h : EmitInv s) {task : EmitTask} (hbusy : s.sending task ≠ .idle)
    (next : Sending) (hne : s.ready ≠ none) :
    Function.update s.sending task next .aggregator = .idle := by
  have haggregator := h.busy hne
  -- a task that sends is not idle, and the aggregator is while a bucket is taken out
  have htask : EmitTask.aggregator ≠ task := fun heq => hbusy (heq ▸ haggregator)
  rw [Function.update_of_ne htask]
  exact haggregator

/-- A row that is sent was held by its task only. -/
theorem emitInv_send (h : EmitInv s) {task : EmitTask} {taken : Bool}
    (hkeeps : s.KeepsOrder captureEnabled (.send task taken))
    (hs : s.step captureEnabled (.send task taken) = some s') : EmitInv s' := by
  simp only [EmitSystem.step] at hs
  simp only [EmitSystem.KeepsOrder] at hkeeps
  cases hsending : s.sending task with
  | idle =>
    -- an idle task has nothing to send
    rw [hsending] at hs
    cases hs
  | db row =>
    rw [hsending] at hs hkeeps
    cases hs
    have hbusy : s.sending task ≠ .idle := by
      rw [hsending]
      exact Sending.noConfusion
    have hdb : row.key ∈ (s.sending task).forDb := by
      rw [hsending]
      exact List.mem_singleton_self _
    have htrade := Sending.forTrade_of_forDb hdb
    -- the trade engine still waits for the same rows
    have hsame : ∀ t, (Function.update s.sending task (.trade row) t).forTrade =
        (s.sending t).forTrade := by
      intro t
      by_cases ht : t = task
      · subst ht
        rw [Function.update_self, hsending]
        rfl
      · rw [Function.update_of_ne ht]
    -- the row moves on from the first gate to the second
    refine ⟨h.built, ?_, ?_, ?_, h.tradeBuilt, ?_, ?_, h.takenOut, busy_update h hbusy _⟩
    · refine inTurn_sent h.db (mem_unsentDb.mpr ⟨task, hdb⟩) hkeeps fun key hkey => ?_
      obtain ⟨t, ht⟩ := mem_unsentDb.mp hkey
      obtain ⟨hne, hold⟩ := @mem_cleared s.sending task t (.trade row) Sending.forDb rfl key ht
      refine ⟨mem_unsentDb.mpr ⟨t, hold⟩, ?_⟩
      rintro rfl
      exact hne (h.distinct t task _ (Sending.forTrade_of_forDb hold) htrade)
    · refine h.trade.wait fun key hkey => Or.inl ?_
      obtain ⟨t, ht⟩ := mem_unsentTrade.mp hkey
      exact mem_unsentTrade.mpr ⟨t, hsame t ▸ ht⟩
    · intro key hkey
      rcases mem_sent hkey with hold | rfl
      · exact h.dbBuilt key hold
      · exact h.held _ (mem_unsentTrade.mpr ⟨task, htrade⟩)
    · intro key hkey
      obtain ⟨t, ht⟩ := mem_unsentTrade.mp hkey
      exact h.held key (mem_unsentTrade.mpr ⟨t, hsame t ▸ ht⟩)
    · intro t t' key ht ht'
      exact h.distinct t t' key (hsame t ▸ ht) (hsame t' ▸ ht')
  | trade row =>
    rw [hsending] at hs hkeeps
    cases hs
    have hbusy : s.sending task ≠ .idle := by
      rw [hsending]
      exact Sending.noConfusion
    have htrade : row.key ∈ (s.sending task).forTrade := by
      rw [hsending]
      exact List.mem_singleton_self _
    have hcleared : ∀ t key, key ∈ (Function.update s.sending task .idle t).forTrade →
        t ≠ task ∧ key ∈ (s.sending t).forTrade :=
      fun t key ht => @mem_cleared s.sending task t .idle Sending.forTrade rfl key ht
    refine ⟨h.built, ?_, ?_, h.dbBuilt, ?_, ?_, ?_, h.takenOut, busy_update h hbusy _⟩
    · refine h.db.wait fun key hkey => Or.inl ?_
      obtain ⟨t, ht⟩ := mem_unsentDb.mp hkey
      exact mem_unsentDb.mpr ⟨t, (@mem_cleared s.sending task t .idle Sending.forDb rfl key ht).2⟩
    · refine inTurn_sent h.trade (mem_unsentTrade.mpr ⟨task, htrade⟩) hkeeps fun key hkey => ?_
      obtain ⟨t, ht⟩ := mem_unsentTrade.mp hkey
      obtain ⟨hne, hold⟩ := hcleared t key ht
      refine ⟨mem_unsentTrade.mpr ⟨t, hold⟩, ?_⟩
      rintro rfl
      exact hne (h.distinct t task _ hold htrade)
    · intro key hkey
      rcases mem_sent hkey with hold | rfl
      · exact h.tradeBuilt key hold
      · exact h.held _ (mem_unsentTrade.mpr ⟨task, htrade⟩)
    · intro key hkey
      obtain ⟨t, ht⟩ := mem_unsentTrade.mp hkey
      exact h.held key (mem_unsentTrade.mpr ⟨t, (hcleared t key ht).2⟩)
    · intro t t' key ht ht'
      exact h.distinct t t' key (hcleared t key ht).2 (hcleared t' key ht').2

theorem emitInv_step {e : EmitEvent} (h : EmitInv s) (hkeeps : s.KeepsOrder captureEnabled e)
    (hs : (emitMachine captureEnabled).step s e = some s') : EmitInv s' := by
  change s.step captureEnabled e = some s' at hs
  cases e with
  | tokenBar input => exact emitInv_tokenBar h hkeeps hs
  | buildReady env => exact emitInv_buildReady h hkeeps hs
  | tick barSecond opiReady clock =>
    simp only [EmitSystem.step] at hs
    split at hs
    · cases hs
      exact emitInv_sameBuckets h s.drained (handleTick_buckets s.agg barSecond opiReady clock)
    · cases hs
  | drain clock =>
    simp only [EmitSystem.step] at hs
    split at hs
    · cases hs
      exact emitInv_sameBuckets h _ (drainFlushQueue_buckets s.agg clock)
    · cases hs
  | build env => exact emitInv_build h hkeeps hs
  | send task taken => exact emitInv_send h hkeeps hs

/-! ## Whole runs -/

theorem inTimeOrderByPair_of_inTurn {waiting : List BarKey} {rows : List Bars1sPair}
    (h : InTurn lane second waiting (rows.map Bars1sPair.key)) : InTimeOrderByPair rows := by
  refine (List.pairwise_map.mp h.sorted).imp fun hab hsame => ?_
  exact hab (Prod.ext hsame.1 hsame.2)

/-- As long as no bar comes for a second that is not later than what is built, and nothing is
built or sent while an older second of its pair and side waits for the same, the rows of every
pair and side are built, written and traded in strictly increasing seconds. -/
theorem pair_bars_in_time_order {lateArrivalBufferS : ℤ} {es : List EmitEvent}
    (hkeeps : (emitMachine captureEnabled).RunMeets (fun s e => s.KeepsOrder captureEnabled e)
      (EmitSystem.start lateArrivalBufferS) es)
    (hr : (emitMachine captureEnabled).run (EmitSystem.start lateArrivalBufferS) es = some s) :
    InTimeOrderByPair s.built ∧ InTimeOrderByPair s.db ∧ InTimeOrderByPair s.trade := by
  have hinv : EmitInv s := (emitMachine captureEnabled).inv_of_runMeets EmitInv
    (fun _ _ _ hi hg hs => emitInv_step hi hg hs) (emitInv_start lateArrivalBufferS) hkeeps hr
  exact ⟨inTimeOrderByPair_of_inTurn hinv.built, inTimeOrderByPair_of_inTurn hinv.db,
    inTimeOrderByPair_of_inTurn hinv.trade⟩

end

/-! ## Two runs -/

/-- The bars that arrive, in order. -/
def barsOf : List EmitEvent → List PairInput
  | [] => []
  | .tokenBar input :: es => input :: barsOf es
  | _ :: es => barsOf es

/-- Each token's bars arrive in increasing seconds. -/
def TokensInOrder (es : List EmitEvent) : Prop :=
  (barsOf es).Pairwise fun a b =>
    a.venue = b.venue ∧ lane a.key = lane b.key → a.barSecond < b.barSecond

instance (es : List EmitEvent) : Decidable (TokensInOrder es) :=
  inferInstanceAs (Decidable (List.Pairwise _ _))

instance (rows : List Bars1sPair) : Decidable (InTimeOrderByPair rows) :=
  inferInstanceAs (Decidable (List.Pairwise _ _))

instance (s : EmitSystem) (captureEnabled : Bool) :
    ∀ e : EmitEvent, Decidable (s.KeepsOrder captureEnabled e)
  | .tokenBar input => inferInstanceAs (Decidable (∀ row ∈ s.built, _ → _ < second input.key))
  | .buildReady _ =>
    inferInstanceAs (Decidable (∀ ready ∈ s.ready, IsNext lane second s.unbuilt ready.1))
  | .tick .. | .drain _ => inferInstanceAs (Decidable True)
  | .build _ =>
    inferInstanceAs (Decidable (∀ key ∈ s.drained.head?, _ → IsNext lane second s.unbuilt key))
  | .send task taken => by
    simp only [EmitSystem.KeepsOrder]
    cases s.sending task <;> infer_instance

/-- Two seconds that are both complete at once. -/
def inOrderRun : List EmitEvent :=
  [.tokenBar pmSecond, .tokenBar opiSecond, .buildReady noContext,
    .send .aggregator true, .send .aggregator true,
    .tokenBar { pmSecond with barSecond := 101 }, .tokenBar { opiSecond with barSecond := 101 },
    .buildReady noContext, .send .aggregator true, .send .aggregator true]

theorem pair_bars_in_time_order_two : ∃ s : EmitSystem,
    (emitMachine true).run (EmitSystem.start 2) inOrderRun = some s ∧ s.built.length = 2 ∧
      InTimeOrderByPair s.built ∧ InTimeOrderByPair s.db ∧ InTimeOrderByPair s.trade := by
  obtain ⟨s, hs⟩ : ∃ s, (emitMachine true).run (EmitSystem.start 2) inOrderRun = some s :=
    Option.isSome_iff_exists.mp (by decide +kernel)
  have hlength : ∀ s ∈ (emitMachine true).run (EmitSystem.start 2) inOrderRun,
      s.built.length = 2 := by
    decide +kernel
  exact ⟨s, hs, hlength s hs, pair_bars_in_time_order (by decide +kernel) hs⟩

/-- The Opinion half of second 100 never comes.  Second 101 is complete and goes out at once,
second 100 follows after a tick. -/
def overtakingRun : List EmitEvent :=
  [.tokenBar pmSecond, .tokenBar { pmSecond with barSecond := 101 },
    .tokenBar { opiSecond with barSecond := 101 }, .buildReady noContext,
    .send .aggregator true, .send .aggregator true,
    .tick 110 true 10, .drain 10, .build noContext,
    .send .flushWorker true, .send .flushWorker true]

/-- A complete second goes out before an older one that still waits for its other half. -/
theorem complete_second_overtakes :
    ¬ ∀ (lateArrivalBufferS : ℤ) (es : List EmitEvent) (s : EmitSystem),
      (emitMachine true).run (EmitSystem.start lateArrivalBufferS) es = some s →
      TokensInOrder es → InTimeOrderByPair s.built ∧ InTimeOrderByPair s.trade := by
  intro h
  obtain ⟨s, hs⟩ : ∃ s, (emitMachine true).run (EmitSystem.start 2) overtakingRun = some s :=
    Option.isSome_iff_exists.mp (by decide +kernel)
  have hwrong : ∀ s ∈ (emitMachine true).run (EmitSystem.start 2) overtakingRun,
      ¬ InTimeOrderByPair s.built := by
    decide +kernel
  exact hwrong s hs (h 2 overtakingRun s hs (by decide +kernel)).1

end AlphaMonitor.Pair
