import AlphaMonitor.Lib.Founded
import AlphaMonitor.Shock.Emission
import AlphaMonitor.Store.Redelivery
import AlphaMonitor.Store.Sweep

/-!
# Shock events before their updates

The shards send the event of a shock before its update, the queue keeps the order, and
the writer commits all it has taken.  So a committed update has its event in Postgres,
as long as alpha capture is on: a process without it acknowledges events that it does
not write, and may stop before it comes to the update.

## Main definitions

- `ShockSystem`: shards, queue and writer, over several processes
- `shockMachine`: every interleaving of their steps

## Main results

- `tags_of_inner`: no step of queue or writer changes the order of shock messages
- `update_follows_event`: every earlier event of a committed update is committed or skipped
-/

namespace AlphaMonitor.Store

open Lib (Founded)
open Shock (BarTags ContextValue ShardShocks ShockPending ShockFinal ShockSignal)
open StoreSystem (Move InnerMove)

/-- What is read back from a row is of the same kind as what was written, with the same shock. -/
def Codec.KeepsShocks {P : Type*} (codec : Codec P) : Prop :=
  ∀ msg, ((codec.encode msg).bind codec.decode).bind DbMessage.shockTag = msg.shockTag

/-! ## The order of shock messages -/

section

variable {P : Type*} (codec : Codec P)

/-- The shock that the message of a row creates or changes. -/
def rowTag (row : QueueRow P) : Option ShockTag :=
  (codec.decode row.payload).bind DbMessage.shockTag

/-- The shock messages of all rows, and behind them those that have none yet. -/
def tagsInOrder (t : StoreSystem P) : List ShockTag :=
  t.history.rows.filterMap (rowTag codec) ++
    (t.spooler.insertBuf ++ t.ingest).filterMap DbMessage.shockTag

variable {codec} {cfg : WriterConfig}

/-- What cannot be written is about no shock. -/
theorem serializable_tags (hcodec : codec.KeepsShocks) (batch : List DbMessage) :
    (serializable codec batch).filterMap (fun item => item.1.shockTag) =
      batch.filterMap DbMessage.shockTag := by
  unfold serializable
  rw [List.filterMap_filterMap]
  congr 1
  funext msg
  have hkeeps := hcodec msg
  cases hencode : codec.encode msg with
  | none =>
    rw [hencode] at hkeeps
    exact hkeeps
  | some payload => rfl

/-- Rows are about the shocks that their messages were about. -/
theorem inserted_tags (hcodec : codec.KeepsShocks) {batch : List (DbMessage × P)}
    (hbatch : ∀ item ∈ batch, codec.encode item.1 = some item.2) (n : ℤ) :
    ((numberFrom n batch).map fun (id, _, p) => (⟨id, p⟩ : QueueRow P)).filterMap (rowTag codec) =
      batch.filterMap fun item => item.1.shockTag := by
  have hcongr : ((numberFrom n batch).map fun (id, _, p) =>
      (⟨id, p⟩ : QueueRow P)).filterMap (rowTag codec) =
      (numberFrom n batch).filterMap fun item => item.2.1.shockTag := by
    rw [List.filterMap_map]
    refine List.filterMap_congr ?_
    intro item hitem
    have hmem : item.2 ∈ batch := by
      rw [← map_snd_numberFrom n batch]
      exact List.mem_map.mpr ⟨item, hitem, rfl⟩
    have hkeeps := hcodec item.2.1
    rw [hbatch item.2 hmem] at hkeeps
    exact hkeeps
  rw [hcongr]
  calc (numberFrom n batch).filterMap (fun item => item.2.1.shockTag)
      = ((numberFrom n batch).map Prod.snd).filterMap fun item => item.1.shockTag := by
        rw [List.filterMap_map]
        rfl
    _ = batch.filterMap fun item => item.1.shockTag := by rw [map_snd_numberFrom]

/-- An insert flush moves messages into rows, in their order. -/
theorem tags_insertFlushed (hcodec : codec.KeepsShocks) (t : StoreSystem P) (ok : Bool) :
    tagsInOrder codec (t.insertFlushed codec ok) = tagsInOrder codec t := by
  obtain ⟨insertBuf, stats, disk, inserted, heq, hinserted, hmsgs⟩ :=
    flushInsert_cases codec ok t.spooler t.disk
  have htags : (inserted.map fun item => (⟨item.1, item.2.2⟩ : QueueRow P)).filterMap
      (rowTag codec) = (inserted.map fun item => item.2.1).filterMap DbMessage.shockTag := by
    rcases hinserted with ⟨rfl, -⟩ | ⟨rfl, -⟩
    · rfl
    · refine (inserted_tags hcodec (fun item hitem => encode_of_mem_serializable hitem) _).trans ?_
      calc (serializable codec t.spooler.insertBuf).filterMap (fun item => item.1.shockTag)
          = ((numberFrom (t.disk.sequence + 1)
              (serializable codec t.spooler.insertBuf)).map Prod.snd).filterMap
                fun item => item.1.shockTag := by rw [map_snd_numberFrom]
        _ = _ := by
          rw [List.filterMap_map, List.filterMap_map]
          rfl
  have hsplit : (inserted.map fun item => item.2.1).filterMap DbMessage.shockTag ++
      insertBuf.filterMap DbMessage.shockTag =
      t.spooler.insertBuf.filterMap DbMessage.shockTag := by
    rw [← List.filterMap_append, ← serializable_tags hcodec t.spooler.insertBuf]
    refine (congrArg (List.filterMap DbMessage.shockTag) hmsgs).trans ?_
    rw [List.filterMap_map]
    rfl
  unfold StoreSystem.insertFlushed tagsInOrder
  rw [heq]
  dsimp only
  rw [List.filterMap_append, htags, List.filterMap_append, List.filterMap_append, ← hsplit,
    List.append_assoc, List.append_assoc]

/-- No step of the spooler or the writer changes the order. -/
theorem tags_of_inner (hcodec : codec.KeepsShocks) {t u : StoreSystem P}
    (hmove : InnerMove codec cfg t u) : tagsInOrder codec u = tagsInOrder codec t := by
  cases hmove with
  | @buffered _ msg ingest hingest =>
    unfold tagsInOrder StoreSystem.bufferMsg
    dsimp only
    rw [hingest, List.append_assoc, List.singleton_append]
  | inserted ok => exact tags_insertFlushed hcodec t ok
  | fetched fetchOk deleteOk =>
    unfold StoreSystem.rowsFetched
    obtain heq | ⟨rows, stats, -, heq⟩ := fetchRows_cases codec fetchOk deleteOk
      (dbWriterChannelCapacity - t.writerRx.length) t.spooler t.disk
    · rw [heq]
      rfl
    · rw [heq]
      rfl
  | deleted oks =>
    obtain ⟨ackBuf, stats, disk, heq, -⟩ := flushAck_cases oks t.spooler t.disk
    unfold StoreSystem.acksFlushed
    rw [heq]
    rfl
  | pumped | handed | acked | received | ticked => rfl

theorem tags_accept (t : StoreSystem P) (msg : DbMessage) :
    tagsInOrder codec (t.accept msg) = tagsInOrder codec t ++ msg.shockTag.toList := by
  unfold tagsInOrder StoreSystem.accept
  dsimp only
  rw [← List.append_assoc, List.filterMap_append, ← List.append_assoc]
  cases htag : msg.shockTag with
  | none => rw [List.filterMap_cons_none htag]; rfl
  | some tag => rw [List.filterMap_cons_some htag]; rfl

/-- What is in memory is lost when a process stops. -/
theorem tags_restart (t : StoreSystem P) :
    tagsInOrder codec (StoreSystem.start t.disk t.writer.pg t.history) <+: tagsInOrder codec t := by
  show t.history.rows.filterMap (rowTag codec) ++ [] <+: _
  rw [List.append_nil]
  exact List.prefix_append _ _

end

/-! ## The system -/

/-- The shards of the processes with the queue and the writer. -/
structure ShockSystem (ι P : Type*) where
  alphaCaptureEnabled : Bool
  shockCounter : ℤ
  shards : ι → ShardShocks
  store : StoreSystem P

inductive ShockStoreEvent (ι : Type*) where
  /-- `emit_result` begins with the signals of a bar. -/
  | bar (i : ι) (tags : BarTags) (pairIds : List ℤ) (signals : List ShockSignal)
  /-- A shard looks at the next signal. -/
  | signal (i : ι)
  /-- A shard sends the message of the signal it looked at. -/
  | sendShock (i : ι)
  /-- Some task sends a message that is not about a shock. -/
  | sendOther (msg : DbMessage)
  /-- A step of the spooler or the writer. -/
  | store (e : StoreEvent)
  /-- The process stops and another one starts, with its own configuration; `nextId` is what it
  reads from `poly_shock_events`. -/
  | restart (alphaCaptureEnabled : Bool) (nextId : ℤ)

namespace ShockSystem

variable {ι P : Type*} [DecidableEq ι]

/-- A process starts; `init_shock_counter` takes no id below one. -/
def start (alphaCaptureEnabled : Bool) (nextId : ℤ) (store : StoreSystem P) : ShockSystem ι P where
  alphaCaptureEnabled := alphaCaptureEnabled
  shockCounter := max nextId 1
  shards := fun _ => ShardShocks.start
  store := store

/-- The configuration that the process starts its writer with. -/
def writerConfig (s : ShockSystem ι P) (bareColumnsResolve : Bool) : WriterConfig :=
  ⟨s.alphaCaptureEnabled, bareColumnsResolve⟩

def setShard (s : ShockSystem ι P) (i : ι) (shard : ShardShocks) : ShockSystem ι P :=
  { s with shards := Function.update s.shards i shard }

/-- One step of one of the tasks. -/
def step (contextJson : List (String × ContextValue) → Option String) (codec : Codec P)
    (bareColumnsResolve : Bool) (s : ShockSystem ι P) :
    ShockStoreEvent ι → Option (ShockSystem ι P)
  | .bar i tags pairIds signals =>
    if (s.shards i).todo = [] ∧ (s.shards i).outgoing = none then
      some (s.setShard i ((s.shards i).beginBar tags pairIds signals))
    else none
  | .signal i =>
    if (s.shards i).outgoing = none then
      let (shard, shockCounter) :=
        (s.shards i).handleSignal contextJson s.alphaCaptureEnabled s.shockCounter
      some { s.setShard i shard with shockCounter := shockCounter }
    else none
  | .sendShock i =>
    (s.shards i).outgoing.map fun msg =>
      { s.setShard i { s.shards i with outgoing := none } with store := s.store.accept msg }
  | .sendOther msg =>
    if msg.shockTag = none then some { s with store := s.store.accept msg } else none
  | .store e =>
    if e.inner = true then
      (s.store.step codec (s.writerConfig bareColumnsResolve) e).map fun store =>
        { s with store := store }
    else none
  | .restart alphaCaptureEnabled nextId =>
    some (start alphaCaptureEnabled nextId
      (StoreSystem.start s.store.disk s.store.writer.pg s.store.history))

end ShockSystem

/-- The first process starts on an empty queue, and any content of Postgres. -/
def ShockSystem.Initial {ι P : Type*} (s : ShockSystem ι P) : Prop :=
  ∃ alphaCaptureEnabled nextId store, s = ShockSystem.start alphaCaptureEnabled nextId store ∧
    store.Initial ∧ store.disk.rows = []

/-- The shards, the spooler and the writer as a machine. -/
def shockMachine {ι P : Type*} [DecidableEq ι]
    (contextJson : List (String × ContextValue) → Option String) (codec : Codec P)
    (bareColumnsResolve : Bool) : Lib.Machine (ShockSystem ι P) (ShockStoreEvent ι) where
  init := ShockSystem.Initial
  step := ShockSystem.step contextJson codec bareColumnsResolve

/-! ## Events before updates -/

section

variable {ι P : Type*} {codec : Codec P} {bareColumnsResolve : Bool}

/-- A writer without alpha capture, which skips whatever another one skips. -/
def skipping (bareColumnsResolve : Bool) : WriterConfig := ⟨false, bareColumnsResolve⟩

theorem skips_skipping {cfg : WriterConfig} (bareColumnsResolve : Bool) {msg : DbMessage}
    (h : cfg.skips msg = true) : (skipping bareColumnsResolve).skips msg = true := by
  unfold WriterConfig.skips at h ⊢
  rw [Bool.and_eq_true] at h
  exact Bool.and_eq_true_iff.mpr ⟨h.1, rfl⟩

/-- What is kept of the queue and the writer by every step of the system. -/
structure Kept (codec : Codec P) (bareColumnsResolve : Bool) (t : StoreSystem P) : Prop where
  inOrder : InOrder codec (skipping bareColumnsResolve) t
  written : ∀ env ∈ t.history.committed, Written (skipping bareColumnsResolve) t.writer.pg env.msg

theorem Kept.init {t : StoreSystem P} (h : t.Initial) : Kept codec bareColumnsResolve t := by
  refine ⟨.init h, ?_⟩
  obtain ⟨disk, pg, rfl⟩ := h.started
  exact fun env henv => absurd henv List.not_mem_nil

theorem Kept.move {cfg : WriterConfig} (hserver : cfg.bareColumnsResolve = bareColumnsResolve)
    {t u : StoreSystem P} (h : Kept codec bareColumnsResolve t) (hmove : Move codec cfg t u) :
    Kept codec bareColumnsResolve u where
  inOrder := h.inOrder.move (fun _ => skips_skipping bareColumnsResolve) t u hmove
  written := by
    have hwritten := written_move (fun env henv => (h.written env henv).of_server hserver.symm) hmove
    exact fun env henv => (hwritten env henv).of_server hserver

/-- Updates come after their events in the queue, and shards know of no other shock. -/
structure ShockSystem.Ordered (codec : Codec P) (bareColumnsResolve : Bool)
    (s : ShockSystem ι P) : Prop where
  kept : Kept codec bareColumnsResolve s.store
  founded : Founded ShockTag.needs (tagsInOrder codec s.store)
  sound : s.alphaCaptureEnabled = true → ∀ i, (s.shards i).Sound fun shockId =>
    .event shockId ∈ tagsInOrder codec s.store
  silent : s.alphaCaptureEnabled = false → ∀ i, (s.shards i).outgoing = none

namespace ShockSystem.Ordered

variable {s s' : ShockSystem ι P}

theorem init (h : s.Initial) : s.Ordered codec bareColumnsResolve := by
  obtain ⟨alphaCaptureEnabled, nextId, store, rfl, hstore, hempty⟩ := h
  have hkept : Kept codec bareColumnsResolve store := .init hstore
  have htags : tagsInOrder codec store = [] := by
    obtain ⟨disk, pg, rfl⟩ := hstore.started
    have hrows : disk.rows = [] := hempty
    simp [tagsInOrder, StoreSystem.start, Spooler.start, hrows]
  refine ⟨hkept, ?_, fun _ i => ShardShocks.sound_start _, fun _ i => rfl⟩
  show Founded ShockTag.needs (tagsInOrder codec store)
  rw [htags]
  exact Founded.nil

/-- A shard does something without sending. -/
theorem setShard [DecidableEq ι] (h : s.Ordered codec bareColumnsResolve) (i : ι) {shard : ShardShocks}
    (hsound : s.alphaCaptureEnabled = true → shard.Sound fun shockId =>
      .event shockId ∈ tagsInOrder codec s.store)
    (hsilent : s.alphaCaptureEnabled = false → shard.outgoing = none) :
    (s.setShard i shard).Ordered codec bareColumnsResolve where
  kept := h.kept
  founded := h.founded
  sound hon j := by
    unfold ShockSystem.setShard
    dsimp only
    by_cases hsame : j = i
    · rw [hsame, Function.update_self]
      exact hsound hon
    · rw [Function.update_of_ne hsame]
      exact h.sound hon j
  silent hoff j := by
    unfold ShockSystem.setShard
    dsimp only
    by_cases hsame : j = i
    · rw [hsame, Function.update_self]
      exact hsilent hoff
    · rw [Function.update_of_ne hsame]
      exact h.silent hoff j

/-- A message is sent that has what it needs in the queue. -/
theorem accept (h : s.Ordered codec bareColumnsResolve) {msg : DbMessage}
    (hneeds : ∀ tag ∈ msg.shockTag, ∀ need ∈ tag.needs, need ∈ tagsInOrder codec s.store) :
    ({ s with store := s.store.accept msg } : ShockSystem ι P).Ordered codec
      bareColumnsResolve where
  kept := by
    have hmove : Move codec (skipping bareColumnsResolve) s.store (s.store.accept msg) :=
      .accepted s.store msg
    exact h.kept.move rfl hmove
  founded := by
    rw [tags_accept]
    cases htag : msg.shockTag with
    | none =>
      rw [Option.toList_none, List.append_nil]
      exact h.founded
    | some tag => exact Founded.concat_iff.mpr ⟨h.founded, hneeds tag htag⟩
  sound hon i := by
    refine (h.sound hon i).mono ?_
    intro shockId hsent
    rw [tags_accept]
    exact List.mem_append_left _ hsent
  silent := h.silent

/-- The spooler or the writer does something. -/
theorem setStore (h : s.Ordered codec bareColumnsResolve) {store : StoreSystem P}
    (hkept : Kept codec bareColumnsResolve store)
    (htags : tagsInOrder codec store = tagsInOrder codec s.store) :
    ({ s with store := store } : ShockSystem ι P).Ordered codec bareColumnsResolve where
  kept := hkept
  founded := htags ▸ h.founded
  sound hon i := htags ▸ h.sound hon i
  silent := h.silent

variable [DecidableEq ι] {contextJson : List (String × ContextValue) → Option String}

/-- A shard sends the message of the signal that it looked at. -/
theorem sendShock (h : s.Ordered codec bareColumnsResolve) {i : ι} {msg : DbMessage}
    (hmsg : (s.shards i).outgoing = some msg) :
    ({ s.setShard i { s.shards i with outgoing := none } with
      store := s.store.accept msg } : ShockSystem ι P).Ordered codec bareColumnsResolve := by
  have hon : s.alphaCaptureEnabled = true := by
    by_contra hoff
    rw [h.silent (Bool.eq_false_of_not_eq_true hoff) i] at hmsg
    cases hmsg
  have hshard := h.sound hon i
  have hneeds : ∀ tag ∈ msg.shockTag, ∀ need ∈ tag.needs, need ∈ tagsInOrder codec s.store := by
    intro tag htag need hneed
    cases tag with
    | event shockId => cases hneed
    | update shockId =>
      cases hneed
      refine hshard.update shockId ?_
      rw [hmsg, Option.bind_some]
      exact htag
  refine (h.accept hneeds).setShard i (fun _ => ?_) (fun _ => rfl)
  constructor
  · intro tokenKey key shockId hmem
    left
    show .event shockId ∈ tagsInOrder codec (s.store.accept msg)
    rw [tags_accept]
    rcases hshard.remembered tokenKey key shockId hmem with hsent | hevent
    · exact List.mem_append_left _ hsent
    · rw [hmsg, Option.bind_some] at hevent
      exact List.mem_append_right _ (Option.mem_toList.mpr hevent)
  · intro shockId hupdate
    cases hupdate

theorem step (hcodec : codec.KeepsShocks) (h : s.Ordered codec bareColumnsResolve)
    {e : ShockStoreEvent ι} (hstep : s.step contextJson codec bareColumnsResolve e = some s') :
    s'.Ordered codec bareColumnsResolve := by
  cases e with
  | bar i tags pairIds signals =>
    rw [ShockSystem.step] at hstep
    split at hstep
    · rename_i hidle
      cases hstep
      exact h.setShard i (fun hon => (h.sound hon i).beginBar tags pairIds signals)
        fun hoff => h.silent hoff i
    · cases hstep
  | signal i =>
    rw [ShockSystem.step] at hstep
    split at hstep
    · rename_i hidle
      cases hstep
      have hsound : s.alphaCaptureEnabled = true →
          ((s.shards i).handleSignal contextJson s.alphaCaptureEnabled s.shockCounter).1.Sound
            fun shockId => .event shockId ∈ tagsInOrder codec s.store := by
        intro hon
        rw [hon]
        exact (h.sound hon i).handleSignal hidle s.shockCounter
      have hset := h.setShard i hsound fun hoff => by
        rw [hoff]
        exact ShardShocks.outgoing_handleSignal_of_off hidle s.shockCounter
      exact ⟨hset.kept, hset.founded, hset.sound, hset.silent⟩
    · cases hstep
  | sendShock i =>
    obtain ⟨msg, hmsg, rfl⟩ := Option.map_eq_some_iff.mp hstep
    exact h.sendShock hmsg
  | sendOther msg =>
    rw [ShockSystem.step] at hstep
    split at hstep
    · rename_i htag
      cases hstep
      refine h.accept ?_
      intro tag hmem
      rw [htag] at hmem
      cases hmem
    · cases hstep
  | store e =>
    rw [ShockSystem.step] at hstep
    split at hstep
    · rename_i hinner
      obtain ⟨store, hstore, rfl⟩ := Option.map_eq_some_iff.mp hstep
      have hboth := StoreSystem.inner_step_inv
        (fun t => Kept codec bareColumnsResolve t ∧
          tagsInOrder codec t = tagsInOrder codec s.store)
        (fun t u hi hmove => ⟨hi.1.move rfl hmove.move, (tags_of_inner hcodec hmove).trans hi.2⟩)
        hinner ⟨h.kept, rfl⟩ hstore
      exact h.setStore hboth.1 hboth.2
    · cases hstep
  | restart alphaCaptureEnabled nextId =>
    cases hstep
    have hmove : Move codec (skipping bareColumnsResolve) s.store
        (StoreSystem.start s.store.disk s.store.writer.pg s.store.history) := .restarted s.store
    exact ⟨h.kept.move rfl hmove, h.founded.of_prefix (tags_restart s.store),
      fun _ i => ShardShocks.sound_start _, fun _ i => rfl⟩

end ShockSystem.Ordered

/-! ## Processes with alpha capture -/

/-- No process is started without alpha capture. -/
def ShockStoreEvent.capturing : ShockStoreEvent ι → Bool
  | .restart alphaCaptureEnabled _ => alphaCaptureEnabled
  | .bar .. | .signal _ | .sendShock _ | .sendOther _ | .store _ => true

/-- All processes of a run have alpha capture. -/
def CaptureKept (s : ShockSystem ι P) (es : List (ShockStoreEvent ι)) : Prop :=
  s.alphaCaptureEnabled = true ∧ ∀ e ∈ es, e.capturing = true

/-- A writer with alpha capture skips nothing. -/
theorem skipped_of_inner {cfg : WriterConfig} (hon : cfg.alphaCaptureEnabled = true)
    {t u : StoreSystem P} (hmove : InnerMove codec cfg t u) :
    u.history.skipped = t.history.skipped := by
  cases hmove with
  | @received _ env writerRx hrx faults nowMs =>
    have hnone : (t.writer.receive cfg faults nowMs env).2.skipped = [] := by
      rw [List.eq_nil_iff_forall_not_mem]
      intro e he
      have hskips := t.writer.receive_skipped he
      unfold WriterConfig.skips at hskips
      rw [hon, Bool.not_true, Bool.and_false] at hskips
      cases hskips
    rw [StoreSystem.wrote, hnone]
    exact List.append_nil _
  | ticked faults nowMs => exact List.append_nil _
  | inserted ok =>
    obtain ⟨insertBuf, stats, disk, inserted, heq, -⟩ :=
      flushInsert_cases codec ok t.spooler t.disk
    rw [StoreSystem.insertFlushed, heq]
  | buffered | pumped | handed | fetched | acked | deleted => rfl

section

variable [DecidableEq ι] {contextJson : List (String × ContextValue) → Option String}

theorem skipped_step {s s' : ShockSystem ι P} {e : ShockStoreEvent ι}
    (h : s.alphaCaptureEnabled = true ∧ s.store.history.skipped = [])
    (hcapturing : e.capturing = true)
    (hstep : s.step contextJson codec bareColumnsResolve e = some s') :
    s'.alphaCaptureEnabled = true ∧ s'.store.history.skipped = [] := by
  cases e with
  | bar i tags pairIds signals =>
    rw [ShockSystem.step] at hstep
    split at hstep
    · cases hstep
      exact h
    · cases hstep
  | signal i =>
    rw [ShockSystem.step] at hstep
    split at hstep
    · cases hstep
      exact h
    · cases hstep
  | sendShock i =>
    obtain ⟨msg, hmsg, rfl⟩ := Option.map_eq_some_iff.mp hstep
    exact h
  | sendOther msg =>
    rw [ShockSystem.step] at hstep
    split at hstep
    · cases hstep
      exact h
    · cases hstep
  | store e =>
    rw [ShockSystem.step] at hstep
    split at hstep
    · rename_i hinner
      obtain ⟨store, hstore, rfl⟩ := Option.map_eq_some_iff.mp hstep
      have hon : (s.writerConfig bareColumnsResolve).alphaCaptureEnabled = true := h.1
      refine ⟨h.1, ?_⟩
      exact StoreSystem.inner_step_inv (fun t => t.history.skipped = [])
        (fun t u hi hmove => (skipped_of_inner hon hmove).trans hi) hinner h.2 hstore
    · cases hstep
  | restart alphaCaptureEnabled nextId =>
    cases hstep
    exact ⟨hcapturing, h.2⟩

/-- Where all processes have alpha capture, nothing is ever skipped. -/
theorem skipped_of_captureKept {s₀ s : ShockSystem ι P} {es : List (ShockStoreEvent ι)}
    (hinit : s₀.Initial) (hkept : CaptureKept s₀ es)
    (hrun : (shockMachine contextJson codec bareColumnsResolve).run s₀ es = some s) :
    s.store.history.skipped = [] := by
  have hmeets := (shockMachine contextJson codec bareColumnsResolve).runMeets_of_forall
    (G := fun _ e => e.capturing = true) (fun e he _ => hkept.2 e he) s₀
  have hstart : s₀.store.history.skipped = [] := by
    obtain ⟨alphaCaptureEnabled, nextId, store, rfl, hstore, -⟩ := hinit
    obtain ⟨disk, pg, rfl⟩ := hstore.started
    rfl
  exact ((shockMachine contextJson codec bareColumnsResolve).inv_of_runMeets
    (fun s => s.alphaCaptureEnabled = true ∧ s.store.history.skipped = [])
    (fun s e s' hi hcapturing hstep => skipped_step hi hcapturing hstep)
    ⟨hkept.1, hstart⟩ hmeets hrun).2

/-- When a shock update has been committed, events of its shock are in rows before it, and each of
them was committed, in the same or an earlier transaction, and is in Postgres; or it was skipped,
which takes a process without alpha capture. -/
theorem update_follows_event (contextJson : List (String × ContextValue) → Option String)
    (codec : Codec P) (bareColumnsResolve : Bool) (hcodec : codec.KeepsShocks)
    {s₀ s : ShockSystem ι P} {es : List (ShockStoreEvent ι)} (hinit : s₀.Initial)
    (hrun : (shockMachine contextJson codec bareColumnsResolve).run s₀ es = some s) :
    ∀ env ∈ s.store.history.committed, ∀ shockId, env.msg.shockTag = some (.update shockId) →
      (∃ row ∈ s.store.history.rows, row.id < env.id ∧ rowTag codec row = some (.event shockId)) ∧
      ∀ row ∈ s.store.history.rows, row.id < env.id → rowTag codec row = some (.event shockId) →
        ∃ event, Reads codec row event ∧
          (event ∈ s.store.history.committed ∧
              s.store.writer.pg.polyShockEvents shockId ≠ none ∨
            event ∈ s.store.history.skipped ∧ ¬ CaptureKept s₀ es) := by
  have hordered : s.Ordered codec bareColumnsResolve :=
    (shockMachine contextJson codec bareColumnsResolve).inv_of_runMeets
      (fun s => s.Ordered codec bareColumnsResolve) (G := fun _ _ => True)
      (fun s e s' hi _ hstep => hi.step hcodec hstep) (.init hinit)
      ((shockMachine contextJson codec bareColumnsResolve).runMeets_trivial s₀ es) hrun
  have hinOrder := hordered.kept.inOrder
  intro env henv shockId htag
  obtain ⟨row, hrow, hid, hdecode⟩ := hinOrder.accounted.origin env
    (List.mem_append_right _ (List.mem_append_right _ henv))
  have hrowTag : rowTag codec row = some (.update shockId) := by
    rw [rowTag, hdecode]
    exact htag
  constructor
  · -- the rows in front of that of the update
    obtain ⟨pre, post, hsplit⟩ := List.append_of_mem hrow
    have htags : (pre.filterMap (rowTag codec)) ++ [.update shockId] <+:
        tagsInOrder codec s.store := by
      unfold tagsInOrder
      rw [hsplit, List.filterMap_append, List.filterMap_cons_some hrowTag, List.append_assoc,
        List.cons_append]
      exact ⟨_, (List.append_cons _ _ _).symm⟩
    have hneed := (Founded.concat_iff.mp (hordered.founded.of_prefix htags)).2
      (.event shockId) rfl
    obtain ⟨row', hrow', htag'⟩ := List.mem_filterMap.mp hneed
    refine ⟨row', ?_, ?_, htag'⟩
    · rw [hsplit]
      exact List.mem_append_left _ hrow'
    · have hsorted := hinOrder.numbered.sorted
      rw [hsplit, List.map_append, List.pairwise_append] at hsorted
      rw [← hid]
      exact hsorted.2.2 row'.id (List.mem_map.mpr ⟨row', hrow', rfl⟩) row.id
        (List.mem_map.mpr ⟨row, List.mem_cons_self, rfl⟩)
  · intro row' hrow' hbefore htag'
    obtain ⟨msg, hmsg, hevent⟩ := Option.bind_eq_some_iff.mp htag'
    refine ⟨⟨row'.id, msg⟩, ⟨rfl, hmsg⟩, ?_⟩
    rcases List.mem_append.mp (hinOrder.settled_of_committed henv hrow' hbefore.le hmsg) with
      hskipped | hcommitted
    · refine .inr ⟨hskipped, fun hkept => ?_⟩
      rw [skipped_of_captureKept hinit hkept hrun] at hskipped
      cases hskipped
    · refine .inl ⟨hcommitted, ?_⟩
      have hwritten := hordered.kept.written _ hcommitted
      refine hwritten.shocks shockId ?_
      cases msg with
      | shockEvent event =>
        cases hevent
        exact List.mem_singleton.mpr rfl
      | _ => cases hevent

end

end

/-! ## A process without alpha capture in between -/

def noContext (_ : List (String × ContextValue)) : Option String := none

theorem plainCodec_keepsShocks : plainCodec.KeepsShocks := fun _ => rfl

def burstTags : BarTags := ⟨"token", .yes, none, 0⟩

def burstPending : ShockPending := ⟨.quoteBurstAdd, 0, 0, 1000, 1000, 50, []⟩

def burstFinal : ShockFinal := ⟨.quoteBurstAdd, 0, 0, 1000, 1000, 4000, 60, []⟩

/-- A shock is detected and made final, and both messages are on disk. -/
def burstRun : List (ShockStoreEvent Unit) :=
  [.bar () burstTags [7] [.pending burstPending], .signal (), .sendShock (),
    .bar () burstTags [7] [.final burstFinal], .signal (), .sendShock (),
    .store (.recvMsg true), .store (.recvMsg true), .store (.insertTick true)]

/-- The two rows are handed to the writer. -/
def handRun : List (ShockStoreEvent Unit) :=
  [.store .sendTick, .store (.pump true true), .store (.pump true true), .store (.pump true true),
    .store (.pump true true), .store (.pump true true)]

/-- One row is handed to the writer. -/
def handLastRun : List (ShockStoreEvent Unit) :=
  [.store .sendTick, .store (.pump true true), .store (.pump true true), .store (.pump true true),
    .store (.pump true true)]

def writeRun : List (ShockStoreEvent Unit) :=
  [.store (.writerRecv PgFaults.none 2000), .store (.writerRecv PgFaults.none 2000),
    .store (.writerTick PgFaults.none 2000)]

/-- The second process has no alpha capture: it skips the event and deletes its row, and stops
before it takes the update.  The third one writes the update. -/
def toggledRun : List (ShockStoreEvent Unit) :=
  burstRun ++ [.restart false 1] ++ handRun ++
    [.store (.writerRecv PgFaults.none 2000), .store (.recvAck fun _ => true),
      .store (.ackTick fun _ => true), .restart true 1] ++ handLastRun ++
    [.store (.writerRecv PgFaults.none 3000), .store (.writerTick PgFaults.none 3000)]

def burstStart : ShockSystem Unit DbMessage := ShockSystem.start true 1 emptyStore

theorem burstStart_initial : burstStart.Initial :=
  ⟨true, 1, emptyStore, rfl, emptyStore_initial, rfl⟩

/-- The event and the update of a shock in one transaction. -/
def writtenBurst : ShockSystem Unit DbMessage :=
  ((shockMachine noContext plainCodec false).run burstStart (burstRun ++ handRun ++ writeRun)).get
    (by decide +kernel)

def burstUpdate : DbEnvelope :=
  ⟨2, .shockEventUpdate (Shock.shockEventUpdate noContext 1 burstFinal)⟩

theorem update_follows_event_burst :
    (∃ row ∈ writtenBurst.store.history.rows, row.id < burstUpdate.id ∧
      rowTag plainCodec row = some (.event 1)) ∧
    ∀ row ∈ writtenBurst.store.history.rows, row.id < burstUpdate.id →
      rowTag plainCodec row = some (.event 1) →
      ∃ event, Reads plainCodec row event ∧
        (event ∈ writtenBurst.store.history.committed ∧
            writtenBurst.store.writer.pg.polyShockEvents 1 ≠ none ∨
          event ∈ writtenBurst.store.history.skipped ∧
            ¬ CaptureKept burstStart (burstRun ++ handRun ++ writeRun)) :=
  update_follows_event noContext plainCodec false plainCodec_keepsShocks burstStart_initial
    (Option.some_get _).symm burstUpdate (by decide +kernel) 1 rfl

def toggledBurst : ShockSystem Unit DbMessage :=
  ((shockMachine noContext plainCodec false).run burstStart toggledRun).get (by decide +kernel)

/-- A committed update whose event never reaches Postgres. -/
theorem update_without_event :
    ¬ ∀ (contextJson : List (String × ContextValue) → Option String) (codec : Codec DbMessage)
      (bareColumnsResolve : Bool), codec.KeepsShocks → ∀ s : ShockSystem Unit DbMessage,
      (shockMachine contextJson codec bareColumnsResolve).Reachable s →
        ∀ env ∈ s.store.history.committed, ∀ shockId, env.msg.shockTag = some (.update shockId) →
          ∃ event ∈ s.store.history.committed, event.msg.shockTag = some (.event shockId) := by
  intro hall
  have hreachable : (shockMachine noContext plainCodec false).Reachable toggledBurst :=
    ⟨burstStart, toggledRun, burstStart_initial, (Option.some_get _).symm⟩
  obtain ⟨event, hmem, htag⟩ := hall noContext plainCodec false plainCodec_keepsShocks toggledBurst
    hreachable burstUpdate (by decide +kernel) 1 rfl
  have hcommitted : toggledBurst.store.history.committed = [burstUpdate] := by decide +kernel
  rw [hcommitted] at hmem
  rw [List.mem_singleton.mp hmem] at htag
  cases htag

end AlphaMonitor.Store
