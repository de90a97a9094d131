import AlphaMonitor.Store.ShockOrder

/-!
# Shock ids over several processes

A process numbers its shocks from the greatest id in Postgres on, so it may give an id that a
message on disk carries already.  The key of `poly_shock_events` lets only one of them in: the
transaction of the other is rolled back, in this process and in every later one.

## Main definitions

- `writtenIds`: the ids of the shock events among messages
- `queuedIds`: the ids of all shock events that were ever put into the queue
- `RestartsAbove`: a process starts with a counter above all of them

## Main results

- `storedIds_of_run`: Postgres has what it had at the start and the ids of the committed events
- `shock_ids_unused`: when no id is given to two events
-/

namespace AlphaMonitor.Store

open Shock (ContextValue)
open StoreSystem (InnerMove)

/-- The id of a shock event. -/
def DbMessage.shockEventId : DbMessage → Option ℤ
  | .shockEvent event => some event.shockId
  | _ => none

/-- The ids of the shock events among messages, in their order. -/
def writtenIds (envs : List DbEnvelope) : List ℤ := envs.filterMap (·.msg.shockEventId)

/-- A message needs its own id to be free. -/
theorem writtenIds_eq (envs : List DbEnvelope) :
    writtenIds envs = envs.flatMap fun env => env.msg.need.shockIds := by
  induction envs with
  | nil => rfl
  | cons env envs ih =>
    rw [List.flatMap_cons, ← ih]
    unfold writtenIds
    rw [List.filterMap_cons]
    cases env.msg <;> rfl

/-- What a flush writes are the ids that its statements need. -/
theorem writtenIds_entries (b : WriterBuffers) : writtenIds b.entries = b.need.shockIds := by
  rw [writtenIds_eq, ← b.need_entries, Need.all_shockIds]

/-! ## What Postgres has -/

/-- Postgres has the ids that it had when the first process started, and those of the committed
events. -/
def StoredIds {P : Type*} (pg₀ : Database) (t : StoreSystem P) : Prop :=
  ∀ id, t.writer.pg.polyShockEvents id = none ↔
    pg₀.polyShockEvents id = none ∧ id ∉ writtenIds t.history.committed

theorem storedIds_start {P : Type*} (pg : Database) :
    StoredIds pg (StoreSystem.start ⟨[], 0⟩ pg ⟨[], [], [], [], [], []⟩ : StoreSystem P) :=
  fun _ => (and_iff_left List.not_mem_nil).symm

/-- A flush adds the ids of the events that it commits. -/
theorem storedIds_flush {cfg : WriterConfig} {pg₀ : Database} {committed : List DbEnvelope}
    {w : Writer} (h : ∀ id, w.pg.polyShockEvents id = none ↔
      pg₀.polyShockEvents id = none ∧ id ∉ writtenIds committed)
    (faults : PgFaults) (nowMs : ℤ) (id : ℤ) :
    (w.flushBuffers cfg faults nowMs).1.pg.polyShockEvents id = none ↔
      pg₀.polyShockEvents id = none ∧
        id ∉ writtenIds (committed ++ (w.flushBuffers cfg faults nowMs).2) := by
  obtain hnothing | ⟨pg, hflush, -, htakes⟩ := @Writer.flushBuffers_commits cfg nowMs w faults
  · rw [hnothing, List.append_nil]
    exact h id
  · have hids : writtenIds (committed ++ w.buffers.entries) =
        writtenIds committed ++ w.buffers.need.shockIds := by
      rw [← writtenIds_entries]
      exact List.filterMap_append
    rw [hflush]
    refine (htakes.shocks id).trans ?_
    rw [h id, hids, List.mem_append, not_or, and_assoc]

/-! ## Whole runs -/

section

variable {P : Type*} {codec : Codec P} {cfg : WriterConfig} {pg₀ : Database}

theorem storedIds_inner {t u : StoreSystem P} (h : StoredIds pg₀ t)
    (hmove : InnerMove codec cfg t u) : StoredIds pg₀ u := by
  unfold StoredIds at h ⊢
  cases hmove with
  | received hrx faults nowMs =>
    rename_i env writerRx
    have hpg : (t.writer.stash cfg env).1.pg = t.writer.pg := by
      unfold Writer.stash
      split
      · rfl
      · rfl
    obtain hcase | hcase := t.writer.receive_cases cfg faults nowMs env
    · rw [hcase, StoreSystem.wrote]
      dsimp only
      rw [List.append_nil, hpg]
      exact h
    · rw [hcase, StoreSystem.wrote]
      dsimp only
      refine storedIds_flush ?_ faults nowMs
      rw [hpg]
      exact h
  | ticked faults nowMs =>
    rw [StoreSystem.wrote, Writer.tick]
    exact storedIds_flush h faults nowMs
  | inserted ok =>
    obtain ⟨insertBuf, stats, disk, inserted, heq, -⟩ :=
      flushInsert_cases codec ok t.spooler t.disk
    rw [StoreSystem.insertFlushed, heq]
    exact h
  | buffered | pumped | handed | fetched | acked | deleted => exact h

variable {ι : Type*} [DecidableEq ι] {contextJson : List (String × ContextValue) → Option String}
  {bareColumnsResolve : Bool}

theorem storedIds_step {s s' : ShockSystem ι P} {e : ShockStoreEvent ι}
    (h : StoredIds pg₀ s.store)
    (hstep : s.step contextJson codec bareColumnsResolve e = some s') :
    StoredIds pg₀ s'.store := by
  cases e with
  | bar i tags pairIds signals =>
    rw [ShockSystem.step] at hstep
    split at hstep
    · cases hstep
      exact h
    · cases hstep
  | signal i =>
    rw [ShockSystem.step] at hstep
    split at hstep
    · cases hstep
      exact h
    · cases hstep
  | sendShock i =>
    obtain ⟨msg, hmsg, rfl⟩ := Option.map_eq_some_iff.mp hstep
    exact h
  | sendOther msg =>
    rw [ShockSystem.step] at hstep
    split at hstep
    · cases hstep
      exact h
    · cases hstep
  | store e =>
    rw [ShockSystem.step] at hstep
    split at hstep
    · rename_i hinner
      obtain ⟨store, hstore, rfl⟩ := Option.map_eq_some_iff.mp hstep
      exact StoreSystem.inner_step_inv (StoredIds pg₀)
        (fun t u hi hmove => storedIds_inner hi hmove) hinner h hstore
    · cases hstep
  | restart alphaCaptureEnabled nextId =>
    cases hstep
    exact h

theorem storedIds_of_run {s₀ s : ShockSystem ι P} {es : List (ShockStoreEvent ι)}
    (h : StoredIds pg₀ s₀.store)
    (hrun : (shockMachine contextJson codec bareColumnsResolve).run s₀ es = some s) :
    StoredIds pg₀ s.store :=
  (shockMachine contextJson codec bareColumnsResolve).inv_of_runMeets
    (fun s => StoredIds pg₀ s.store) (fun _ _ _ hi _ hstep => storedIds_step hi hstep) h
    ((shockMachine contextJson codec bareColumnsResolve).runMeets_trivial s₀ es) hrun

/-! ## Ids in the queue -/

/-- The id of an event. -/
def ShockTag.eventId : ShockTag → Option ℤ
  | .event shockId => some shockId
  | .update _ => none

/-- The ids of the shock events that were put into the queue, written or not. -/
def queuedIds (codec : Codec P) (t : StoreSystem P) : List ℤ :=
  (tagsInOrder codec t).filterMap ShockTag.eventId

/-- The ids of the shock events that are or were on disk. -/
def diskIds (codec : Codec P) (t : StoreSystem P) : List ℤ :=
  (t.history.rows.filterMap (rowTag codec)).filterMap ShockTag.eventId

theorem diskIds_sublist (codec : Codec P) (t : StoreSystem P) :
    (diskIds codec t).Sublist (queuedIds codec t) :=
  ((List.prefix_append _ _).sublist).filterMap _

/-- The counter that `main` reads: one more than the greatest id in Postgres. -/
def CounterRead (pg : Database) (nextId : ℤ) : Prop :=
  (∃ maxId, IsGreatest {id | pg.polyShockEvents id ≠ none} maxId ∧ nextId = maxId + 1) ∨
    (∀ id, pg.polyShockEvents id = none) ∧ nextId = 1

/-- A process counts from above all ids in Postgres. -/
def CountsAbove (pg : Database) (nextId : ℤ) : Prop :=
  ∀ id, pg.polyShockEvents id ≠ none → id < max nextId 1

theorem CounterRead.countsAbove {pg : Database} {nextId : ℤ} (h : CounterRead pg nextId) :
    CountsAbove pg nextId := by
  intro id hstored
  rcases h with ⟨maxId, hgreatest, rfl⟩ | ⟨hempty, -⟩
  · have hle : id ≤ maxId := hgreatest.2 hstored
    omega
  · exact absurd (hempty id) hstored

/-- A new process counts from above all ids in Postgres and above those of the events on disk. -/
def RestartsAbove (codec : Codec P) (s : ShockSystem ι P) : ShockStoreEvent ι → Prop
  | .restart _ nextId =>
    CountsAbove s.store.writer.pg nextId ∧ ∀ id ∈ diskIds codec s.store, id < max nextId 1
  | _ => True

omit [DecidableEq ι] in
/-- With the counter that is read, it is the events on disk alone that matter. -/
theorem restartsAbove_iff {s : ShockSystem ι P} {alphaCaptureEnabled : Bool} {nextId : ℤ}
    (hread : CounterRead s.store.writer.pg nextId) :
    RestartsAbove codec s (.restart alphaCaptureEnabled nextId) ↔
      ∀ id ∈ diskIds codec s.store, id < max nextId 1 :=
  and_iff_right hread.countsAbove

/-- The message that the shard is about to send is the event of this shock. -/
def Announces (shard : Shock.ShardShocks) (id : ℤ) : Prop :=
  shard.outgoing.bind DbMessage.shockTag = some (.event id)

/-- What a signal leads to is the event with the next id, or no event at all. -/
theorem announces_handleSignal {shard : Shock.ShardShocks} (hidle : shard.outgoing = none)
    (alphaCaptureEnabled : Bool) (shockCounter : ℤ) {id : ℤ}
    (h : Announces (shard.handleSignal contextJson alphaCaptureEnabled shockCounter).1 id) :
    id = shockCounter ∧
      (shard.handleSignal contextJson alphaCaptureEnabled shockCounter).2 = shockCounter + 1 := by
  unfold Announces Shock.ShardShocks.handleSignal at h
  unfold Shock.ShardShocks.handleSignal
  split at h
  · rw [hidle] at h
    cases h
  · refine ⟨?_, rfl⟩
    dsimp only at h
    split at h
    · cases h
      rfl
    · cases h
  · dsimp only at h
    split at h
    · cases hfound : shard.pendingShocks _ _ with
      | none =>
        rw [hfound] at h
        cases h
      | some shockId =>
        rw [hfound] at h
        cases h
    · cases h

theorem counter_handleSignal (shard : Shock.ShardShocks) (alphaCaptureEnabled : Bool)
    (shockCounter : ℤ) :
    shockCounter ≤ (shard.handleSignal contextJson alphaCaptureEnabled shockCounter).2 := by
  unfold Shock.ShardShocks.handleSignal
  split
  · exact le_refl _
  · exact (lt_add_one _).le
  · exact le_refl _

/-- Every id in the queue was given once, after those that Postgres had at the start; a shard that
is about to send an event has an id of its own. -/
structure UnusedIds (pg₀ : Database) (codec : Codec P) (s : ShockSystem ι P) : Prop where
  distinct : (queuedIds codec s.store).Nodup
  queued : ∀ id ∈ queuedIds codec s.store, id < s.shockCounter ∧ pg₀.polyShockEvents id = none
  announced : ∀ i id, Announces (s.shards i) id → id < s.shockCounter ∧
    pg₀.polyShockEvents id = none ∧ id ∉ queuedIds codec s.store
  apart : ∀ i j id, Announces (s.shards i) id → Announces (s.shards j) id → i = j
  stored : ∀ id, pg₀.polyShockEvents id ≠ none → id < s.shockCounter

namespace UnusedIds

variable {s s' : ShockSystem ι P}

omit [DecidableEq ι] in
/-- The queue and the writer go on. -/
theorem setStore (h : UnusedIds pg₀ codec s) {store : StoreSystem P}
    (htags : tagsInOrder codec store = tagsInOrder codec s.store) :
    UnusedIds pg₀ codec { s with store := store } := by
  have hids : queuedIds codec store = queuedIds codec s.store :=
    congrArg (List.filterMap ShockTag.eventId) htags
  refine ⟨?_, ?_, ?_, h.apart, h.stored⟩
  · show (queuedIds codec store).Nodup
    rw [hids]
    exact h.distinct
  · show ∀ id ∈ queuedIds codec store, _
    rw [hids]
    exact h.queued
  · intro i id hannounces
    show _ ∧ _ ∧ id ∉ queuedIds codec store
    rw [hids]
    exact h.announced i id hannounces

omit [DecidableEq ι] in
/-- A message that is no event joins the queue. -/
theorem accept_other (h : UnusedIds pg₀ codec s) {msg : DbMessage}
    (hother : msg.shockTag.bind ShockTag.eventId = none) :
    UnusedIds pg₀ codec { s with store := s.store.accept msg } := by
  have hids : queuedIds codec (s.store.accept msg) = queuedIds codec s.store := by
    unfold queuedIds
    rw [tags_accept, List.filterMap_append]
    cases htag : msg.shockTag with
    | none => exact List.append_nil _
    | some tag =>
      rw [htag, Option.bind_some] at hother
      rw [Option.toList_some, List.filterMap_cons_none hother]
      exact List.append_nil _
  refine ⟨?_, ?_, ?_, h.apart, h.stored⟩
  · show (queuedIds codec (s.store.accept msg)).Nodup
    rw [hids]
    exact h.distinct
  · show ∀ id ∈ queuedIds codec (s.store.accept msg), _
    rw [hids]
    exact h.queued
  · intro i id hannounces
    show _ ∧ _ ∧ id ∉ queuedIds codec (s.store.accept msg)
    rw [hids]
    exact h.announced i id hannounces

/-- A shard does something that announces no event. -/
theorem setShard (h : UnusedIds pg₀ codec s) (i : ι) (shard : Shock.ShardShocks)
    (hshard : ∀ id, Announces shard id → Announces (s.shards i) id) :
    UnusedIds pg₀ codec (s.setShard i shard) := by
  have hback : ∀ j id, Announces ((s.setShard i shard).shards j) id → Announces (s.shards j) id := by
    intro j id hannounces
    unfold ShockSystem.setShard at hannounces
    dsimp only at hannounces
    by_cases hsame : j = i
    · rw [hsame] at hannounces ⊢
      rw [Function.update_self] at hannounces
      exact hshard id hannounces
    · rwa [Function.update_of_ne hsame] at hannounces
  exact ⟨h.distinct, h.queued, fun j id hj => h.announced j id (hback j id hj),
    fun j k id hj hk => h.apart j k id (hback j id hj) (hback k id hk), h.stored⟩

/-- A shard gives the next id to an event. -/
theorem announce (h : UnusedIds pg₀ codec s) (i : ι) {shard : Shock.ShardShocks} {shockCounter : ℤ}
    (hle : s.shockCounter ≤ shockCounter)
    (hshard : ∀ id, Announces shard id → id = s.shockCounter ∧ shockCounter = s.shockCounter + 1) :
    UnusedIds pg₀ codec { s.setShard i shard with shockCounter := shockCounter } := by
  have hfresh : pg₀.polyShockEvents s.shockCounter = none := by
    by_contra hstored
    exact lt_irrefl _ (h.stored _ hstored)
  have hnew : s.shockCounter ∉ queuedIds codec s.store := fun hmem =>
    lt_irrefl _ (h.queued _ hmem).1
  have hat : ∀ j id, Announces (Function.update s.shards i shard j) id →
      (j = i ∧ Announces shard id) ∨ (j ≠ i ∧ Announces (s.shards j) id) := by
    intro j id hannounces
    by_cases hsame : j = i
    · rw [hsame, Function.update_self] at hannounces
      exact Or.inl ⟨hsame, hannounces⟩
    · rw [Function.update_of_ne hsame] at hannounces
      exact Or.inr ⟨hsame, hannounces⟩
  refine ⟨h.distinct, fun id hid => ⟨(h.queued id hid).1.trans_le hle, (h.queued id hid).2⟩, ?_, ?_,
    fun id hid => (h.stored id hid).trans_le hle⟩
  · intro j id hannounces
    rcases hat j id hannounces with ⟨-, hshard'⟩ | ⟨-, hold⟩
    · obtain ⟨rfl, hcounter⟩ := hshard id hshard'
      exact ⟨hcounter ▸ lt_add_one _, hfresh, hnew⟩
    · obtain ⟨hlt, hnone, hout⟩ := h.announced j id hold
      exact ⟨hlt.trans_le hle, hnone, hout⟩
  · intro j k id hj hk
    rcases hat j id hj with ⟨hji, hnewj⟩ | ⟨hji, holdj⟩
    · rcases hat k id hk with ⟨hki, -⟩ | ⟨-, holdk⟩
      · rw [hji, hki]
      · -- the next id is not announced yet
        have hlt := (h.announced k id holdk).1
        rw [(hshard id hnewj).1] at hlt
        exact absurd hlt (lt_irrefl _)
    · rcases hat k id hk with ⟨-, hnewk⟩ | ⟨-, holdk⟩
      · have hlt := (h.announced j id holdj).1
        rw [(hshard id hnewk).1] at hlt
        exact absurd hlt (lt_irrefl _)
      · exact h.apart j k id holdj holdk

/-- An announced event joins the queue. -/
theorem sendShock (h : UnusedIds pg₀ codec s) {i : ι} {msg : DbMessage}
    (hmsg : (s.shards i).outgoing = some msg) :
    UnusedIds pg₀ codec { s.setShard i { s.shards i with outgoing := none } with
      store := s.store.accept msg } := by
  have hgone : ∀ id, ¬Announces { s.shards i with outgoing := none } id := by
    intro id hannounces
    cases hannounces
  have hset := h.setShard i { s.shards i with outgoing := none }
    fun id hannounces => absurd hannounces (hgone id)
  cases hid : msg.shockTag.bind ShockTag.eventId with
  | none => exact hset.accept_other hid
  | some id =>
    obtain ⟨tag, htag, hevent⟩ := Option.bind_eq_some_iff.mp hid
    obtain rfl : tag = .event id := by
      cases tag with
      | event shockId =>
        cases hevent
        rfl
      | update shockId => cases hevent
    have hannounced : Announces (s.shards i) id := by
      unfold Announces
      rw [hmsg, Option.bind_some]
      exact htag
    obtain ⟨hlt, hnone, hout⟩ := h.announced i id hannounced
    have hids : queuedIds codec (s.store.accept msg) = queuedIds codec s.store ++ [id] := by
      unfold queuedIds
      rw [tags_accept, List.filterMap_append, htag]
      rfl
    refine ⟨?_, ?_, ?_, hset.apart, h.stored⟩
    · show (queuedIds codec (s.store.accept msg)).Nodup
      rw [hids]
      exact List.nodup_append.mpr ⟨h.distinct, List.nodup_singleton id, fun a ha b hb hab =>
        hout (List.mem_singleton.mp hb ▸ hab ▸ ha)⟩
    · show ∀ id' ∈ queuedIds codec (s.store.accept msg), _
      rw [hids]
      intro id' hmem
      rcases List.mem_append.mp hmem with hold | hnew
      · exact h.queued id' hold
      · rw [List.mem_singleton.mp hnew]
        exact ⟨hlt, hnone⟩
    · intro j id' hannounces
      show _ ∧ _ ∧ id' ∉ queuedIds codec (s.store.accept msg)
      obtain ⟨hlt', hnone', hout'⟩ := hset.announced j id' hannounces
      refine ⟨hlt', hnone', ?_⟩
      rw [hids, List.mem_append, not_or]
      refine ⟨hout', fun hsame => ?_⟩
      -- the shard that has sent announces nothing more, and no other has its id
      unfold ShockSystem.setShard at hannounces
      dsimp only at hannounces
      by_cases hij : j = i
      · rw [hij, Function.update_self] at hannounces
        exact hgone id' hannounces
      · rw [Function.update_of_ne hij] at hannounces
        rw [List.mem_singleton.mp hsame] at hannounces
        exact hij (h.apart j i id hannounces hannounced)

theorem step (hcodec : codec.KeepsShocks) (h : UnusedIds pg₀ codec s)
    (hwritten : StoredIds pg₀ s.store) {e : ShockStoreEvent ι} (hguard : RestartsAbove codec s e)
    (hstep : s.step contextJson codec bareColumnsResolve e = some s') :
    UnusedIds pg₀ codec s' := by
  cases e with
  | bar i tags pairIds signals =>
    rw [ShockSystem.step] at hstep
    split at hstep
    · cases hstep
      exact h.setShard i _ fun id hannounces => hannounces
    · cases hstep
  | signal i =>
    rw [ShockSystem.step] at hstep
    split at hstep
    · rename_i hidle
      cases hstep
      exact h.announce i (counter_handleSignal _ _ _) fun id hannounces =>
        announces_handleSignal hidle _ _ hannounces
    · cases hstep
  | sendShock i =>
    obtain ⟨msg, hmsg, rfl⟩ := Option.map_eq_some_iff.mp hstep
    exact h.sendShock hmsg
  | sendOther msg =>
    rw [ShockSystem.step] at hstep
    split at hstep
    · rename_i htag
      cases hstep
      exact h.accept_other (by rw [htag]; rfl)
    · cases hstep
  | store e =>
    rw [ShockSystem.step] at hstep
    split at hstep
    · rename_i hinner
      obtain ⟨store, hstore, rfl⟩ := Option.map_eq_some_iff.mp hstep
      exact h.setStore (StoreSystem.inner_step_inv
        (fun t => tagsInOrder codec t = tagsInOrder codec s.store)
        (fun t u hi hmove => (tags_of_inner hcodec hmove).trans hi) hinner rfl hstore)
    · cases hstep
  | restart alphaCaptureEnabled nextId =>
    cases hstep
    obtain ⟨hstored, hdisk⟩ := hguard
    -- of the queue only the rows are left
    have hids : queuedIds codec (StoreSystem.start s.store.disk s.store.writer.pg s.store.history) =
        diskIds codec s.store := by
      show (s.store.history.rows.filterMap (rowTag codec) ++ []).filterMap _ = _
      rw [List.append_nil]
      rfl
    have hsub := diskIds_sublist codec s.store
    refine ⟨?_, ?_, ?_, ?_, ?_⟩
    · show (queuedIds codec (StoreSystem.start _ _ _)).Nodup
      rw [hids]
      exact h.distinct.sublist hsub
    · show ∀ id ∈ queuedIds codec (StoreSystem.start _ _ _), _
      rw [hids]
      exact fun id hid => ⟨hdisk id hid, (h.queued id (hsub.subset hid)).2⟩
    · intro i id hannounces
      cases hannounces
    · intro i j id hannounces
      cases hannounces
    · intro id hid
      -- what Postgres had at the start it still has
      exact hstored id fun hnone => hid ((hwritten id).mp hnone).1

end UnusedIds

/-- In any sequence of processes on one queue and one Postgres, each stopped at any point: where
every new process starts above the ids in Postgres and above those of the events on disk, no id is
given to two events in the queue, nor one that Postgres had at the start. -/
theorem shock_ids_unused (contextJson : List (String × ContextValue) → Option String)
    (codec : Codec P) (hcodec : codec.KeepsShocks) (bareColumnsResolve alphaCaptureEnabled : Bool)
    {nextId : ℤ} {pg : Database} (hstart : CountsAbove pg nextId) {es : List (ShockStoreEvent ι)}
    {s : ShockSystem ι P}
    (hrun : (shockMachine contextJson codec bareColumnsResolve).run
      (ShockSystem.start alphaCaptureEnabled nextId
        (StoreSystem.start ⟨[], 0⟩ pg ⟨[], [], [], [], [], []⟩)) es = some s)
    (habove : (shockMachine contextJson codec bareColumnsResolve).RunMeets (RestartsAbove codec)
      (ShockSystem.start alphaCaptureEnabled nextId
        (StoreSystem.start ⟨[], 0⟩ pg ⟨[], [], [], [], [], []⟩)) es) :
    (queuedIds codec s.store).Nodup ∧
      ∀ id ∈ queuedIds codec s.store, pg.polyShockEvents id = none := by
  have hunused : UnusedIds pg codec (ShockSystem.start alphaCaptureEnabled nextId
      (StoreSystem.start ⟨[], 0⟩ pg ⟨[], [], [], [], [], []⟩) : ShockSystem ι P) := by
    refine ⟨List.nodup_nil, List.forall_mem_nil _, ?_, ?_, hstart⟩
    · intro i id hannounces
      cases hannounces
    · intro i j id hannounces
      cases hannounces
  have hend := (shockMachine contextJson codec bareColumnsResolve).inv_of_runMeets
    (fun s => UnusedIds pg codec s ∧ StoredIds pg s.store)
    (fun _ _ _ hi hguard hstep =>
      ⟨hi.1.step hcodec hi.2 hguard hstep, storedIds_step hi.2 hstep⟩)
    ⟨hunused, storedIds_start pg⟩ habove hrun
  exact ⟨hend.1.distinct, fun id hid => (hend.1.queued id hid).2⟩

end

/-! ## An id that is given twice -/

/-- A shock is detected, and its event is on disk. -/
def shockOnDisk (triggerTsMs : ℤ) : List (ShockStoreEvent Unit) :=
  [.bar () burstTags [7] [.pending { burstPending with triggerTsMs := triggerTsMs }], .signal (),
    .sendShock (), .store (.recvMsg true), .store (.insertTick true)]

/-- The next row is handed to the writer, which tries to write it. -/
def writeNext : List (ShockStoreEvent Unit) :=
  handLastRun ++ [.store (.writerRecv PgFaults.none 2000), .store (.writerTick PgFaults.none 2000)]

/-- The state after a run that is possible. -/
def shocksAfter (es : List (ShockStoreEvent Unit)) : ShockSystem Unit DbMessage :=
  ((shockMachine noContext plainCodec false).run burstStart es).getD burstStart

theorem run_shocksAfter (es : List (ShockStoreEvent Unit))
    (h : ((shockMachine noContext plainCodec false).run burstStart es).isSome = true) :
    (shockMachine noContext plainCodec false).run burstStart es = some (shocksAfter es) := by
  unfold shocksAfter
  obtain ⟨s, hs⟩ := Option.isSome_iff_exists.mp h
  rw [hs]
  rfl

theorem fresh_counterRead : CounterRead Database.fresh 1 := Or.inr ⟨fun _ => rfl, rfl⟩

/-- The first process writes its event. -/
def firstCounted : List (ShockStoreEvent Unit) := shockOnDisk 1000 ++ writeNext

/-- The second one reads the counter, and counts on from there. -/
def countedOn : List (ShockStoreEvent Unit) :=
  firstCounted ++ (.restart true 2 :: shockOnDisk 9000)

theorem firstCounted_counterRead :
    CounterRead (shocksAfter firstCounted).store.writer.pg 2 := by
  have hstored := storedIds_of_run (storedIds_start Database.fresh)
    (run_shocksAfter firstCounted (by decide +kernel))
  have hcommitted : writtenIds (shocksAfter firstCounted).store.history.committed = [1] := by
    decide +kernel
  refine Or.inl ⟨1, ⟨?_, ?_⟩, rfl⟩
  · intro hnone
    refine ((hstored 1).mp hnone).2 ?_
    rw [hcommitted]
    exact List.mem_singleton.mpr rfl
  · intro id hid
    by_contra hlt
    refine hid ((hstored id).mpr ⟨rfl, ?_⟩)
    rw [hcommitted, List.mem_singleton]
    omega

theorem shock_ids_unused_counted :
    queuedIds plainCodec (shocksAfter countedOn).store = [1, 2] ∧
      (queuedIds plainCodec (shocksAfter countedOn).store).Nodup ∧
        ∀ id ∈ queuedIds plainCodec (shocksAfter countedOn).store,
          Database.fresh.polyShockEvents id = none := by
  refine ⟨by decide +kernel, shock_ids_unused noContext plainCodec plainCodec_keepsShocks false true
    fresh_counterRead.countsAbove (run_shocksAfter countedOn (by decide +kernel)) ?_⟩
  have hfirst : ∀ e ∈ firstCounted, ∀ s, RestartsAbove plainCodec s e := by
    intro e he s
    simp only [firstCounted, shockOnDisk, writeNext, handLastRun, List.cons_append, List.nil_append,
      List.mem_cons, List.not_mem_nil, or_false] at he
    rcases he with rfl | rfl | rfl | rfl | rfl | rfl | rfl | rfl | rfl | rfl | rfl | rfl <;> trivial
  have hsecond : ∀ e ∈ shockOnDisk 9000, ∀ s, RestartsAbove plainCodec s e := by
    intro e he s
    simp only [shockOnDisk, List.mem_cons, List.not_mem_nil, or_false] at he
    rcases he with rfl | rfl | rfl | rfl | rfl <;> trivial
  show (shockMachine noContext plainCodec false).RunMeets _ burstStart
    (firstCounted ++ (.restart true 2 :: shockOnDisk 9000))
  refine Lib.Machine.RunMeets.append (shockMachine noContext plainCodec false)
    (Lib.Machine.runMeets_of_forall _ hfirst burstStart) ?_
  intro t ht
  obtain rfl : shocksAfter firstCounted = t :=
    Option.some.inj ((run_shocksAfter _ (by decide +kernel)).symm.trans ht)
  refine ⟨(restartsAbove_iff firstCounted_counterRead).mpr ?_, fun u _ =>
    Lib.Machine.runMeets_of_forall _ hsecond u⟩
  decide +kernel

/-- The first process stops with its event on disk only.  The second one finds no shock in
Postgres and counts from one again; it writes the event on disk, then detects a shock itself. -/
def reusedRun : List (ShockStoreEvent Unit) :=
  shockOnDisk 1000 ++ [.restart true 1] ++ writeNext ++ shockOnDisk 9000 ++ writeNext

/-- Both events have the id 1, and only the first one is ever written. -/
theorem shock_id_reused :
    CounterRead (shocksAfter (shockOnDisk 1000)).store.writer.pg 1 ∧
      (shockMachine noContext plainCodec false).Reachable (shocksAfter reusedRun) ∧
      queuedIds plainCodec (shocksAfter reusedRun).store = [1, 1] ∧
      writtenIds (shocksAfter reusedRun).store.history.committed = [1] := by
  refine ⟨?_, ⟨burstStart, reusedRun, burstStart_initial,
    run_shocksAfter reusedRun (by decide +kernel)⟩, by decide +kernel, by decide +kernel⟩
  have hstored := storedIds_of_run (storedIds_start Database.fresh)
    (run_shocksAfter (shockOnDisk 1000) (by decide +kernel))
  have hcommitted : writtenIds (shocksAfter (shockOnDisk 1000)).store.history.committed = [] := by
    decide +kernel
  refine Or.inr ⟨fun id => (hstored id).mpr ⟨rfl, ?_⟩, rfl⟩
  rw [hcommitted]
  exact List.not_mem_nil

end AlphaMonitor.Store
