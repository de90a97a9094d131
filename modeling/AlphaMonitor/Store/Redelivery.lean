import AlphaMonitor.Store.Delivery
import AlphaMonitor.Store.Transactions

/-!
# Redelivery after a restart

A process that stops between a commit and the deletion of its rows leaves rows on disk
whose messages are in Postgres already.  The next process delivers them again.

The messages that the writer upserts or appends are absorbed.  A token bar or a shock
event is not: its key is taken, its statement fails in every flush, and the writer
keeps all its rows from then on.

## Main results

- `Writer.wedged_run`: a writer whose rows cannot be written keeps them
- `redelivery_absorbed_iff`: which redeliveries are absorbed in any batching
-/

namespace AlphaMonitor.Store

variable {cfg : WriterConfig}

/-! ## Runs of the writer -/

/-- What happens to the writer while the server fails nothing. -/
inductive WriterEvent where
  | receive (env : DbEnvelope) (nowMs : ℤ)
  | tick (nowMs : ℤ)

/-- The message that an event brings. -/
def WriterEvent.received : WriterEvent → Option DbEnvelope
  | .receive env _ => some env
  | .tick _ => none

namespace Writer

def step (cfg : WriterConfig) (w : Writer) : WriterEvent → Writer × WriterOutput
  | .receive env nowMs => w.receive cfg PgFaults.none nowMs env
  | .tick nowMs => w.tick cfg PgFaults.none nowMs

/-- The writer after some events, and the ids it acknowledged. -/
def run (cfg : WriterConfig) : Writer → List WriterEvent → Writer × List ℤ
  | w, [] => (w, [])
  | w, e :: es =>
    ((run cfg (w.step cfg e).1 es).1, (w.step cfg e).2.acks ++ (run cfg (w.step cfg e).1 es).2)

/-- The writer of a process that has just been started. -/
def fresh (pg : Database) : Writer := ⟨WriterBuffers.empty, pg⟩

/-- A started writer has written and acknowledged everything it received. -/
def Absorbs (cfg : WriterConfig) (pg : Database) (es : List WriterEvent) : Prop :=
  ((fresh pg).run cfg es).1.buffers = WriterBuffers.empty ∧
    ∀ env ∈ es.filterMap WriterEvent.received, env.id ∈ ((fresh pg).run cfg es).2

theorem run_append (w : Writer) (es es' : List WriterEvent) :
    w.run cfg (es ++ es') = (((w.run cfg es).1.run cfg es').1,
      (w.run cfg es).2 ++ ((w.run cfg es).1.run cfg es').2) := by
  induction es generalizing w with
  | nil => rfl
  | cons e es ih => rw [List.cons_append, run, ih, run, List.append_assoc]

/-- What a step receives is acknowledged or in the buffers afterwards. -/
theorem step_entries (w : Writer) (e : WriterEvent) {env : DbEnvelope}
    (h : env ∈ e.received.toList ++ w.buffers.entries) :
    env.id ∈ (w.step cfg e).2.acks ∨ env ∈ (w.step cfg e).1.buffers.entries := by
  have hmem : env ∈ (w.step cfg e).2.skipped ++ (w.step cfg e).2.committed ++
      (w.step cfg e).1.buffers.entries := by
    cases e with
    | receive env' nowMs =>
      rw [step]
      refine (w.receive_entries env').symm.subset ?_
      simpa [WriterEvent.received] using h
    | tick nowMs =>
      rw [step, tick_entries]
      simpa [WriterEvent.received] using h
  rcases List.mem_append.mp hmem with hout | hbuf
  · exact .inl (List.mem_map.mpr ⟨env, hout, rfl⟩)
  · exact .inr hbuf

/-- A message that a run receives is acknowledged in the end or in the buffers. -/
theorem run_entries (w : Writer) (es : List WriterEvent) {env : DbEnvelope}
    (h : env ∈ es.filterMap WriterEvent.received ++ w.buffers.entries) :
    env.id ∈ (w.run cfg es).2 ∨ env ∈ (w.run cfg es).1.buffers.entries := by
  induction es generalizing w with
  | nil => exact .inr h
  | cons e es ih =>
    rw [run]
    have hcases : env ∈ e.received.toList ++ w.buffers.entries ∨
        env ∈ es.filterMap WriterEvent.received := by
      cases hreceived : e.received with
      | none => simpa [hreceived, or_comm] using h
      | some env' =>
        have hsplit : (env = env' ∨ env ∈ es.filterMap WriterEvent.received) ∨
            env ∈ w.buffers.entries := by simpa [hreceived, or_assoc] using h
        rcases hsplit with (rfl | hlater) | hbuf
        · exact .inl List.mem_cons_self
        · exact .inr hlater
        · exact .inl (List.mem_cons_of_mem _ hbuf)
    have hnext : env.id ∈ (w.step cfg e).2.acks ∨
        env ∈ es.filterMap WriterEvent.received ++ (w.step cfg e).1.buffers.entries := by
      rcases hcases with hnow | hlater
      · exact (w.step_entries e hnow).imp_right (List.mem_append_right _)
      · exact .inr (List.mem_append_left _ hlater)
    rcases hnext with hacked | hrest
    · exact .inl (List.mem_append_left _ hacked)
    · exact (ih _ hrest).imp_left (List.mem_append_right _)

/-- Once the buffers are empty everything has been acknowledged. -/
theorem absorbs_iff {pg : Database} {es : List WriterEvent} :
    Absorbs cfg pg es ↔ ((fresh pg).run cfg es).1.buffers = WriterBuffers.empty := by
  constructor
  · exact fun h => h.1
  · intro h
    refine ⟨h, fun env henv => ?_⟩
    rcases (fresh pg).run_entries es (List.mem_append_left _ henv) with hacked | hbuf
    · exact hacked
    · rw [h, WriterBuffers.entries_empty] at hbuf
      exact absurd hbuf List.not_mem_nil

/-! ## A writer that can write all its rows -/

/-- The messages that the writer does not skip. -/
def kept (cfg : WriterConfig) (msgs : List DbMessage) : List DbMessage :=
  msgs.filter fun msg => !cfg.skips msg

/-- The need of messages. -/
def needOf (msgs : List DbMessage) : Need := Need.all DbMessage.need msgs

/-- The buffers and the messages still to come can be written together. -/
def Clear (cfg : WriterConfig) (w : Writer) (rest : List DbMessage) : Prop :=
  (w.buffers.need.and (needOf rest)).Met cfg w.pg

theorem clear_iff {w : Writer} {rest : List DbMessage} :
    Clear cfg w rest ↔ (needOf (w.buffers.entries.map DbEnvelope.msg ++ rest)).Met cfg w.pg := by
  rw [Clear, needOf, needOf, Need.all_append, Need.all_map, WriterBuffers.need_entries]

/-- A flush of such a writer commits, and the messages to come can still be written. -/
theorem Clear.flush {w : Writer} {rest : List DbMessage} (h : Clear cfg w rest) (nowMs : ℤ) :
    (w.flushBuffers cfg PgFaults.none nowMs).1.buffers = WriterBuffers.empty ∧
      Clear cfg (w.flushBuffers cfg PgFaults.none nowMs).1 rest := by
  have hbuffers : w.buffers.need.Met cfg w.pg := Need.Met.left h
  obtain ⟨pg, hflush, htakes⟩ :=
    @flushBuffers_of_met cfg nowMs w (WriterBuffers.met_stagedNeed hbuffers)
  rw [hflush]
  exact ⟨rfl, ((Need.met_and_iff htakes).mp h).2⟩

theorem Clear.stash {w : Writer} {rest : List DbMessage} {env : DbEnvelope}
    (h : Clear cfg w (kept cfg [env.msg] ++ rest)) : Clear cfg (w.stash cfg env).1 rest := by
  rw [clear_iff] at h ⊢
  unfold Writer.stash
  by_cases hskips : cfg.skips env.msg = true
  · simpa [kept, hskips] using h
  · rw [if_neg hskips]
    dsimp only
    have hkept : kept cfg [env.msg] = [env.msg] := by simp [kept, hskips]
    rw [hkept] at h
    -- The pushed message is one of the buffers now.
    have hperm : (w.buffers.entries.map DbEnvelope.msg ++ ([env.msg] ++ rest)).Perm
        ((w.buffers.push env.id env.msg).entries.map DbEnvelope.msg ++ rest) := by
      have hpush := ((w.buffers.entries_push env.id env.msg).map DbEnvelope.msg).append_right rest
      refine List.Perm.trans ?_ hpush.symm
      exact List.perm_middle
    exact (Need.met_all_perm hperm).mp h

theorem Clear.receive {w : Writer} {rest : List DbMessage} {env : DbEnvelope} {nowMs : ℤ}
    (h : Clear cfg w (kept cfg [env.msg] ++ rest)) :
    Clear cfg (w.receive cfg PgFaults.none nowMs env).1 rest := by
  obtain hcase | hcase := w.receive_cases cfg PgFaults.none nowMs env
  · rw [hcase]
    exact h.stash
  · rw [hcase]
    exact (h.stash.flush nowMs).2

/-- What can be written stays so along a run. -/
theorem Clear.run {w : Writer} {es : List WriterEvent} {rest : List DbMessage}
    (h : Clear cfg w
      (kept cfg ((es.filterMap WriterEvent.received).map DbEnvelope.msg) ++ rest)) :
    Clear cfg (w.run cfg es).1 rest := by
  induction es generalizing w with
  | nil => exact h
  | cons e es ih =>
    rw [Writer.run]
    apply ih
    cases e with
    | receive env nowMs =>
      rw [step]
      apply Clear.receive
      rw [← List.append_assoc, kept, kept, ← List.filter_append]
      exact h
    | tick nowMs =>
      rw [step, tick_fst]
      exact (Clear.flush h nowMs).2

/-! ## A writer that cannot -/

/-- The rows in the buffers cannot be written together. -/
def Wedged (cfg : WriterConfig) (w : Writer) : Prop :=
  ¬ w.buffers.stagedNeed.Met cfg w.pg

theorem Wedged.ne_empty {w : Writer} (h : Wedged cfg w) : w.buffers ≠ WriterBuffers.empty := by
  intro hempty
  apply h
  rw [hempty]
  exact Need.met_nothing cfg w.pg

/-- More rows need more. -/
theorem Wedged.stash {w : Writer} (h : Wedged cfg w) (env : DbEnvelope) :
    Wedged cfg (w.stash cfg env).1 := by
  unfold Writer.stash
  split
  · exact h
  · intro hmet
    refine h (WriterBuffers.met_staged_of_push hmet)

theorem Wedged.step {w : Writer} (h : Wedged cfg w) (e : WriterEvent) :
    Wedged cfg (w.step cfg e).1 := by
  cases e with
  | receive env nowMs =>
    rw [Writer.step]
    obtain hcase | hcase := w.receive_cases cfg PgFaults.none nowMs env
    · rw [hcase]
      exact h.stash env
    · rw [hcase]
      dsimp only
      rw [flushBuffers_of_not_met (h.stash env)]
      exact h.stash env
  | tick nowMs =>
    rw [Writer.step, tick_fst, flushBuffers_of_not_met h]
    exact h

/-- A wedged writer never writes again, whatever comes: no flush commits. -/
theorem wedged_run {w : Writer} (h : Wedged cfg w) (es : List WriterEvent) :
    Wedged cfg (w.run cfg es).1 := by
  induction es generalizing w with
  | nil => exact h
  | cons e es ih =>
    rw [Writer.run]
    exact ih (h.step e)

/-! ## One message at a time -/

/-- Every message is followed by a tick. -/
def oneByOne : List DbMessage → List WriterEvent
  | [] => []
  | msg :: msgs => .receive ⟨0, msg⟩ 0 :: .tick 0 :: oneByOne msgs

theorem received_oneByOne (msgs : List DbMessage) :
    ((oneByOne msgs).filterMap WriterEvent.received).map DbEnvelope.msg = msgs := by
  induction msgs with
  | nil => rfl
  | cons msg msgs ih =>
    rw [oneByOne]
    exact congrArg (msg :: ·) ih

/-- A buffered message alone needs what it needs by itself. -/
theorem stagedNeed_push (id : ℤ) (msg : DbMessage) :
    (WriterBuffers.empty.push id msg).stagedNeed = msg.need := by
  cases msg <;> rfl

theorem need_push (id : ℤ) (msg : DbMessage) :
    (WriterBuffers.empty.push id msg).need = msg.need := by
  cases msg <;> rfl

/-- One message does not fill a buffer. -/
theorem not_full_push (id : ℤ) (msg : DbMessage) : (WriterBuffers.empty.push id msg).full = false := by
  cases msg <;> rfl

/-- If messages that come one at a time are all written, they can be written together. -/
theorem met_of_oneByOne {pg : Database} {msgs : List DbMessage} {nowMs : ℤ}
    (h : ((fresh pg).run cfg (oneByOne msgs ++ [.tick nowMs])).1.buffers = WriterBuffers.empty) :
    (needOf (kept cfg msgs)).Met cfg pg := by
  induction msgs generalizing pg with
  | nil => exact Need.met_nothing cfg pg
  | cons msg msgs ih =>
    rw [oneByOne, List.cons_append, List.cons_append, Writer.run, Writer.run] at h
    dsimp only at h
    by_cases hskips : cfg.skips msg = true
    · have hstep : (((fresh pg).step cfg (.receive ⟨0, msg⟩ 0)).1.step cfg (.tick 0)).1 =
          fresh pg := by
        simp [Writer.step, Writer.receive, Writer.tick, Writer.stash, hskips, fresh,
          WriterBuffers.full, WriterBuffers.empty, Writer.flushBuffers, WriterBuffers.isEmpty]
      rw [hstep] at h
      have hkept : kept cfg (msg :: msgs) = kept cfg msgs := by simp [kept, hskips]
      rw [hkept]
      exact ih h
    · have hreceive : ((fresh pg).step cfg (.receive ⟨0, msg⟩ 0)).1 =
          ⟨WriterBuffers.empty.push 0 msg, pg⟩ := by
        simp [Writer.step, Writer.receive, Writer.stash, hskips, fresh, not_full_push]
      rw [hreceive, Writer.step, tick_fst] at h
      by_cases hmet : (WriterBuffers.empty.push 0 msg).stagedNeed.Met cfg pg
      · obtain ⟨pg', hflush, htakes⟩ :=
          @flushBuffers_of_met cfg 0 ⟨WriterBuffers.empty.push 0 msg, pg⟩ hmet
        rw [hflush] at h
        have hkept : kept cfg (msg :: msgs) = msg :: kept cfg msgs := by simp [kept, hskips]
        rw [stagedNeed_push] at hmet
        rw [need_push] at htakes
        rw [hkept, needOf, Need.all_cons]
        exact (Need.met_and_iff htakes).mpr ⟨hmet, ih h⟩
      · -- The message stays in its buffer for good.
        have hwedged : Wedged cfg ⟨WriterBuffers.empty.push 0 msg, pg⟩ := hmet
        have hflush := @flushBuffers_of_not_met cfg 0 ⟨WriterBuffers.empty.push 0 msg, pg⟩ hmet
        rw [hflush] at h
        exact absurd h (wedged_run hwedged _).ne_empty

end Writer

/-! ## What was committed stays written -/

variable {P : Type*} {codec : Codec P}

/-- The message's keys are taken, and if it is an override the server takes those. -/
structure Written (cfg : WriterConfig) (pg : Database) (msg : DbMessage) : Prop where
  tokens : ∀ k ∈ msg.need.tokenKeys, pg.bars1sToken k ≠ none
  shocks : ∀ id ∈ msg.need.shockIds, pg.polyShockEvents id ≠ none
  resolved : msg.need.overrides = true → cfg.bareColumnsResolve = true

theorem Written.takes {pg pg' : Database} {msg : DbMessage} {need : Need}
    (h : Written cfg pg msg) (htakes : Need.Takes pg need pg') : Written cfg pg' msg where
  tokens k hk hnone := h.tokens k hk ((htakes.tokens k).mp hnone).1
  shocks i hi hnone := h.shocks i hi ((htakes.shocks i).mp hnone).1
  resolved := h.resolved

/-- A committed flush writes its rows and leaves those of earlier ones. -/
theorem Writer.written_flush {w : Writer} {faults : PgFaults} {nowMs : ℤ}
    {committed : List DbEnvelope} (h : ∀ env ∈ committed, Written cfg w.pg env.msg) :
    ∀ env ∈ committed ++ (w.flushBuffers cfg faults nowMs).2,
      Written cfg (w.flushBuffers cfg faults nowMs).1.pg env.msg := by
  obtain hkept | ⟨pg, hflush, hmet, htakes⟩ := @flushBuffers_commits cfg nowMs w faults
  · rw [hkept, List.append_nil]
    exact h
  · rw [hflush]
    intro env henv
    rcases List.mem_append.mp henv with hold | hnew
    · exact (h env hold).takes htakes
    · have hneed := w.buffers.need_entries
      constructor
      · intro k hk hnone
        refine ((htakes.tokens k).mp hnone).2 ?_
        rw [← hneed, Need.all_tokenKeys]
        exact List.mem_flatMap.mpr ⟨env, hnew, hk⟩
      · intro i hi hnone
        refine ((htakes.shocks i).mp hnone).2 ?_
        rw [← hneed, Need.all_shockIds]
        exact List.mem_flatMap.mpr ⟨env, hnew, hi⟩
      · intro ho
        have hoverrides : w.buffers.need.overrides = true := by
          rw [← hneed, Need.all_overrides]
          exact List.any_eq_true.mpr ⟨env, hnew, ho⟩
        exact hmet.resolved hoverrides

theorem Written.of_server {cfg' : WriterConfig} {pg : Database} {msg : DbMessage}
    (h : Written cfg pg msg) (hserver : cfg.bareColumnsResolve = cfg'.bareColumnsResolve) :
    Written cfg' pg msg :=
  ⟨h.tokens, h.shocks, fun hoverrides => hserver ▸ h.resolved hoverrides⟩

/-- What was committed stays in Postgres. -/
theorem written_move {t u : StoreSystem P} (h : ∀ env ∈ t.history.committed,
    Written cfg t.writer.pg env.msg) (hmove : StoreSystem.Move codec cfg t u) :
    ∀ env ∈ u.history.committed, Written cfg u.writer.pg env.msg := by
  cases hmove with
  | received hrx faults nowMs =>
    rename_i env writerRx
    have hpg : (t.writer.stash cfg env).1.pg = t.writer.pg := by
      unfold Writer.stash
      split <;> rfl
    obtain hcase | hcase := t.writer.receive_cases cfg faults nowMs env
    · rw [hcase, StoreSystem.wrote]
      dsimp only
      rw [List.append_nil, hpg]
      exact h
    · rw [hcase, StoreSystem.wrote]
      dsimp only
      refine Writer.written_flush ?_
      rw [hpg]
      exact h
  | ticked faults nowMs =>
    rw [StoreSystem.wrote, Writer.tick]
    exact Writer.written_flush h
  | inserted ok =>
    obtain ⟨insertBuf, stats, disk, inserted, heq, -⟩ :=
      flushInsert_cases codec ok t.spooler t.disk
    rw [StoreSystem.insertFlushed, heq]
    exact h
  | accepted | buffered | pumped | handed | fetched | acked | deleted | restarted => exact h

/-- Everything that was ever committed is in Postgres. -/
theorem committed_written {t : StoreSystem P} (h : (storeMachine codec cfg).Reachable t) :
    ∀ env ∈ t.history.committed, Written cfg t.writer.pg env.msg := by
  refine storeMachine_inv (fun t => ∀ env ∈ t.history.committed, Written cfg t.writer.pg env.msg)
    ?_ (fun t u hi hmove => written_move hi hmove) h
  intro t hinit
  obtain ⟨disk, pg, rfl⟩ := hinit.started
  exact fun env henv => absurd henv List.not_mem_nil

/-! ## Redelivery -/

/-- The messages whose statement has no conflict clause although their key is not serial. -/
def DbMessage.plainInsert : DbMessage → Bool
  | .bars1sToken _ | .shockEvent _ => true
  | _ => false

/-- A message that is written again needs a free key just in case it is inserted plainly. -/
theorem met_need_iff_of_written {pg : Database} {msg : DbMessage} (h : Written cfg pg msg) :
    msg.need.Met cfg pg ↔ msg.plainInsert = false := by
  cases msg with
  | bars1sToken bar =>
    refine iff_of_false (fun hmet => ?_) (by simp [DbMessage.plainInsert])
    exact h.tokens _ (List.mem_singleton.mpr rfl) (hmet.tokensFree _ (List.mem_singleton.mpr rfl))
  | shockEvent event =>
    refine iff_of_false (fun hmet => ?_) (by simp [DbMessage.plainInsert])
    exact h.shocks _ (List.mem_singleton.mpr rfl) (hmet.shocksFree _ (List.mem_singleton.mpr rfl))
  | pairTokenOverride pairId tokenSide tokenId =>
    refine iff_of_true ?_ rfl
    exact ⟨fun _ hk => absurd hk List.not_mem_nil, List.nodup_nil,
      fun _ hi => absurd hi List.not_mem_nil, List.nodup_nil, h.resolved⟩
  | _ => exact iff_of_true (Need.met_nothing cfg pg) rfl

/-- What can be written again has no key that it could take. -/
theorem takes_of_met_written {pg : Database} {msg : DbMessage} (hmet : msg.need.Met cfg pg)
    (h : Written cfg pg msg) : Need.Takes pg msg.need pg := by
  constructor
  · exact fun k => (and_iff_left fun hk => h.tokens k hk (hmet.tokensFree k hk)).symm
  · exact fun i => (and_iff_left fun hi => h.shocks i hi (hmet.shocksFree i hi)).symm

/-- Messages that are written again take no key from those that come with them, as they may have
none to take. -/
theorem met_needOf_append_iff {pg : Database} {redelivered new : List DbMessage}
    (h : ∀ msg ∈ redelivered, Written cfg pg msg) :
    (Writer.needOf (redelivered ++ new)).Met cfg pg ↔
      (∀ msg ∈ redelivered, msg.plainInsert = false) ∧ (Writer.needOf new).Met cfg pg := by
  induction redelivered with
  | nil => simp
  | cons msg redelivered ih =>
    have hmsg := met_need_iff_of_written (h msg List.mem_cons_self)
    have hrest := ih fun m hm => h m (List.mem_cons_of_mem _ hm)
    rw [List.cons_append, Writer.needOf, Need.all_cons, List.forall_mem_cons, and_assoc, ← hrest,
      ← hmsg]
    constructor
    · intro hmet
      have hfirst : msg.need.Met cfg pg := hmet.left
      refine ⟨hfirst, ?_⟩
      exact ((Need.met_and_iff (takes_of_met_written hfirst (h msg List.mem_cons_self))).mp hmet).2
    · rintro ⟨hfirst, htail⟩
      exact (Need.met_and_iff (takes_of_met_written hfirst (h msg List.mem_cons_self))).mpr
        ⟨hfirst, htail⟩

/-- After a restart the messages that were committed before are absorbed with any new ones, however
they are batched, just in case none of them is a token bar or a shock event that the writer does
not skip, and the new ones could be written without them. -/
theorem redelivery_absorbed_iff (codec : Codec P) (cfg : WriterConfig) {t : StoreSystem P}
    (h : (storeMachine codec cfg).Reachable t) (captureEnabled : Bool)
    {redelivered new : List DbMessage}
    (hcommitted : ∀ msg ∈ redelivered, ∃ env ∈ t.history.committed, env.msg = msg) (nowMs : ℤ) :
    (∀ es : List WriterEvent,
      ((es.filterMap WriterEvent.received).map DbEnvelope.msg).Perm (redelivered ++ new) →
        Writer.Absorbs { cfg with alphaCaptureEnabled := captureEnabled } t.writer.pg
          (es ++ [.tick nowMs])) ↔
      (∀ msg ∈ Writer.kept { cfg with alphaCaptureEnabled := captureEnabled } redelivered,
        msg.plainInsert = false) ∧
      (Writer.needOf (Writer.kept { cfg with alphaCaptureEnabled := captureEnabled } new)).Met
        { cfg with alphaCaptureEnabled := captureEnabled } t.writer.pg := by
  set cfg' : WriterConfig := { cfg with alphaCaptureEnabled := captureEnabled } with hcfg
  have hwritten : ∀ msg ∈ Writer.kept cfg' redelivered, Written cfg' t.writer.pg msg := by
    intro msg hmsg
    obtain ⟨env, henv, rfl⟩ := hcommitted msg (List.mem_of_mem_filter hmsg)
    obtain ⟨htokens, hshocks, hresolved⟩ := committed_written h env henv
    exact ⟨htokens, hshocks, hresolved⟩
  rw [← met_needOf_append_iff hwritten, Writer.kept, Writer.kept, ← List.filter_append, ← Writer.kept]
  constructor
  · intro hall
    refine @Writer.met_of_oneByOne cfg' t.writer.pg _ nowMs ?_
    have habsorbs := hall (Writer.oneByOne (redelivered ++ new))
      (by rw [Writer.received_oneByOne])
    exact habsorbs.1
  · intro hmet es hperm
    rw [Writer.absorbs_iff, Writer.run_append]
    -- What the run receives can be written, so its buffers can at the end.
    have hclear : Writer.Clear cfg' ((Writer.fresh t.writer.pg).run cfg' es).1 [] := by
      apply Writer.Clear.run
      rw [List.append_nil, Writer.clear_iff]
      have hfresh : (Writer.fresh t.writer.pg).buffers.entries = [] := WriterBuffers.entries_empty
      rw [hfresh, List.map_nil, List.nil_append]
      exact (Need.met_all_perm (hperm.filter _)).mpr hmet
    rw [Writer.run, Writer.step, Writer.tick_fst]
    exact (hclear.flush nowMs).1

/-! ## A wedged writer -/

/-- Alpha capture is on, and the server is Postgres. -/
def captureOn : WriterConfig := ⟨true, false⟩

def sampleShock : DbMessage := .shockEvent
  { shockId := 1
    tokenKey := "token"
    pairId := some 7
    tokenSide := .yes
    shockType := "PRICE"
    direction := 1
    noiseFlag := 0
    startTsMs := 1000
    triggerTsMs := 2000
    peakTsMs := 2000
    magnitude := 3 / 100
    contextJson := none
    obsLatencyMs := none
    connectionHealthFlags := 0
    status := .pending
    peakFinalized := 0 }

/-- One message is committed, and its row is still on disk. -/
def commitRun (msg : DbMessage) : List StoreEvent :=
  [.send msg, .recvMsg true, .insertTick true, .sendTick, .pump true true, .pump true true,
    .pump true true, .pump true true, .writerRecv PgFaults.none 2000, .writerTick PgFaults.none 2000]

def storedOffset : StoreSystem DbMessage :=
  ((storeMachine plainCodec captureOn).run emptyStore (commitRun sampleOffset)).get
    (by decide +kernel)

theorem storedOffset_reachable : (storeMachine plainCodec captureOn).Reachable storedOffset :=
  ⟨emptyStore, commitRun sampleOffset, emptyStore_initial, (Option.some_get _).symm⟩

/-- A clock offset that was committed is delivered again, together with a new shock event. -/
theorem redelivery_absorbed_offset :
    storedOffset.history.committed.map DbEnvelope.msg = [sampleOffset] ∧
      ∀ es : List WriterEvent,
        ((es.filterMap WriterEvent.received).map DbEnvelope.msg).Perm
          ([sampleOffset] ++ [sampleShock]) →
            Writer.Absorbs { captureOn with alphaCaptureEnabled := true } storedOffset.writer.pg
              (es ++ [.tick 3000]) := by
  refine ⟨by decide +kernel, (redelivery_absorbed_iff plainCodec captureOn storedOffset_reachable
    true (by decide +kernel) 3000).mpr ?_⟩
  exact ⟨by decide +kernel, by decide +kernel, by decide +kernel, by decide +kernel,
    by decide +kernel, by decide +kernel⟩

def storedShock : StoreSystem DbMessage :=
  ((storeMachine plainCodec captureOn).run emptyStore (commitRun sampleShock)).get
    (by decide +kernel)

theorem storedShock_reachable : (storeMachine plainCodec captureOn).Reachable storedShock :=
  ⟨emptyStore, commitRun sampleShock, emptyStore_initial, (Option.some_get _).symm⟩

/-- A shock event that was committed and is delivered again, alone, stays in its buffer. -/
theorem redelivered_shock_wedges :
    ¬ ∀ (codec : Codec DbMessage) (cfg : WriterConfig) (t : StoreSystem DbMessage),
      (storeMachine codec cfg).Reachable t → ∀ redelivered : List DbMessage,
        (∀ msg ∈ redelivered, ∃ env ∈ t.history.committed, env.msg = msg ∧
          ∃ row ∈ t.disk.rows, row.id = env.id ∧ codec.decode row.payload = some env.msg) →
        ∀ (es : List WriterEvent) (nowMs : ℤ),
          ((es.filterMap WriterEvent.received).map DbEnvelope.msg).Perm redelivered →
            Writer.Absorbs cfg t.writer.pg (es ++ [.tick nowMs]) := by
  intro hall
  have habsorbs := hall plainCodec captureOn storedShock storedShock_reachable [sampleShock]
    (by decide +kernel) [.receive ⟨1, sampleShock⟩ 3000] 3000 (List.Perm.refl _)
  have hstuck : ((Writer.fresh storedShock.writer.pg).run captureOn
      ([.receive ⟨1, sampleShock⟩ 3000] ++ [.tick 3000])).1.buffers ≠ WriterBuffers.empty := by
    decide +kernel
  exact hstuck habsorbs.1

end AlphaMonitor.Store
