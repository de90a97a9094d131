import AlphaMonitor.Store.Writer

/-!
# When a flush commits

Only three statements of a flush can fail by themselves: the two inserts without a
conflict clause, when a key of theirs is taken, and the upsert of a token override,
where the server does not resolve its columns.  What rows need of the tables adds up
along the statements, and a flush commits just in case the need of its rows is met.
-/

namespace AlphaMonitor.Store

open Lib (insertRow_eq_some insertRows_isSome_iff insertRows_taken flatten_toChunks dedupeRows
  nodup_dedupeRows mem_map_key_dedupeRows)
open Shard (Bars1sToken)

/-! ## Needs -/

/-- The keys that have to be free, and whether an override is written. -/
structure Need where
  tokenKeys : List TokenBarKey
  shockIds : List ℤ
  overrides : Bool

namespace Need

def nothing : Need := ⟨[], [], false⟩

def and (a b : Need) : Need where
  tokenKeys := a.tokenKeys ++ b.tokenKeys
  shockIds := a.shockIds ++ b.shockIds
  overrides := a.overrides || b.overrides

/-- The need of several rows or statements together. -/
def all {α : Type*} (need : α → Need) (xs : List α) : Need :=
  xs.foldr (fun x acc => (need x).and acc) nothing

/-- The keys are free and distinct, and overrides can be written. -/
structure Met (cfg : WriterConfig) (pg : Database) (need : Need) : Prop where
  tokensFree : ∀ k ∈ need.tokenKeys, pg.bars1sToken k = none
  tokensDistinct : need.tokenKeys.Nodup
  shocksFree : ∀ id ∈ need.shockIds, pg.polyShockEvents id = none
  shocksDistinct : need.shockIds.Nodup
  resolved : need.overrides = true → cfg.bareColumnsResolve = true

/-- The tables after the rows were written: their keys are taken as well. -/
structure Takes (pg : Database) (need : Need) (pg' : Database) : Prop where
  tokens : ∀ k, pg'.bars1sToken k = none ↔ pg.bars1sToken k = none ∧ k ∉ need.tokenKeys
  shocks : ∀ id, pg'.polyShockEvents id = none ↔ pg.polyShockEvents id = none ∧
    id ∉ need.shockIds

variable {cfg : WriterConfig} {pg pg' pg'' : Database} {a b : Need} {α : Type*}

@[simp] theorem all_nil (need : α → Need) : all need [] = nothing := rfl

@[simp] theorem all_cons (need : α → Need) (x : α) (xs : List α) :
    all need (x :: xs) = (need x).and (all need xs) := rfl

@[simp] theorem nothing_and (a : Need) : nothing.and a = a := rfl

@[simp] theorem and_nothing (a : Need) : a.and nothing = a := by
  simp [and, nothing]

theorem and_assoc (a b c : Need) : (a.and b).and c = a.and (b.and c) := by
  simp [and, List.append_assoc, Bool.or_assoc]

theorem all_append (need : α → Need) (xs ys : List α) :
    all need (xs ++ ys) = (all need xs).and (all need ys) := by
  induction xs with
  | nil => rfl
  | cons x xs ih => rw [List.cons_append, all_cons, ih, all_cons, and_assoc]

theorem all_map {β : Type*} (need : β → Need) (f : α → β) (xs : List α) :
    all need (xs.map f) = all (fun x => need (f x)) xs := by
  simp only [all, List.foldr_map]

theorem all_eq_nothing {need : α → Need} {xs : List α} (h : ∀ x ∈ xs, need x = nothing) :
    all need xs = nothing := by
  induction xs with
  | nil => rfl
  | cons x xs ih =>
    rw [all_cons, h x List.mem_cons_self, nothing_and]
    exact ih fun y hy => h y (List.mem_cons_of_mem x hy)

theorem all_tokenKeys (need : α → Need) (xs : List α) :
    (all need xs).tokenKeys = xs.flatMap fun x => (need x).tokenKeys := by
  induction xs with
  | nil => rfl
  | cons x xs ih => rw [all_cons, and, ih, List.flatMap_cons]

theorem all_shockIds (need : α → Need) (xs : List α) :
    (all need xs).shockIds = xs.flatMap fun x => (need x).shockIds := by
  induction xs with
  | nil => rfl
  | cons x xs ih => rw [all_cons, and, ih, List.flatMap_cons]

theorem all_overrides (need : α → Need) (xs : List α) :
    (all need xs).overrides = xs.any fun x => (need x).overrides := by
  induction xs with
  | nil => rfl
  | cons x xs ih => rw [all_cons, and, ih, List.any_cons]

theorem met_nothing (cfg : WriterConfig) (pg : Database) : nothing.Met cfg pg :=
  ⟨fun _ h => absurd h List.not_mem_nil, List.nodup_nil, fun _ h => absurd h List.not_mem_nil,
    List.nodup_nil, fun h => absurd h Bool.false_ne_true⟩

/-- What leaves both tables as they are takes no key. -/
theorem takes_of_eq {overrides : Bool} (htokens : pg'.bars1sToken = pg.bars1sToken)
    (hshocks : pg'.polyShockEvents = pg.polyShockEvents) : Takes pg ⟨[], [], overrides⟩ pg' := by
  constructor
  · intro k
    rw [htokens]
    exact (and_iff_left List.not_mem_nil).symm
  · intro i
    rw [hshocks]
    exact (and_iff_left List.not_mem_nil).symm

/-- What is written second needs its keys from what the first left free. -/
theorem met_and_iff (h : Takes pg a pg') : (a.and b).Met cfg pg ↔ a.Met cfg pg ∧ b.Met cfg pg' := by
  constructor
  · rintro ⟨htokens, hdistinct, hshocks, hids, hresolved⟩
    obtain ⟨hda, hdb, hdis⟩ := List.nodup_append.mp hdistinct
    obtain ⟨hsa, hsb, hsis⟩ := List.nodup_append.mp hids
    refine ⟨⟨fun k hk => htokens k (List.mem_append_left _ hk), hda,
      fun i hi => hshocks i (List.mem_append_left _ hi), hsa,
      fun ho => hresolved (by simp [and, ho])⟩, ?_, hdb, ?_, hsb,
      fun ho => hresolved (by simp [and, ho])⟩
    · intro k hk
      exact (h.tokens k).mpr ⟨htokens k (List.mem_append_right _ hk),
        fun hka => hdis k hka k hk rfl⟩
    · intro i hi
      exact (h.shocks i).mpr ⟨hshocks i (List.mem_append_right _ hi),
        fun hia => hsis i hia i hi rfl⟩
  · rintro ⟨ha, hb⟩
    refine ⟨?_, ?_, ?_, ?_, ?_⟩
    · intro k hk
      rcases List.mem_append.mp hk with hka | hkb
      · exact ha.tokensFree k hka
      · exact ((h.tokens k).mp (hb.tokensFree k hkb)).1
    · refine List.nodup_append.mpr ⟨ha.tokensDistinct, hb.tokensDistinct, ?_⟩
      rintro k hka _ hkb rfl
      exact ((h.tokens k).mp (hb.tokensFree k hkb)).2 hka
    · intro i hi
      rcases List.mem_append.mp hi with hia | hib
      · exact ha.shocksFree i hia
      · exact ((h.shocks i).mp (hb.shocksFree i hib)).1
    · refine List.nodup_append.mpr ⟨ha.shocksDistinct, hb.shocksDistinct, ?_⟩
      rintro i hia _ hib rfl
      exact ((h.shocks i).mp (hb.shocksFree i hib)).2 hia
    · intro ho
      rcases Bool.or_eq_true_iff.mp ho with hoa | hob
      · exact ha.resolved hoa
      · exact hb.resolved hob

theorem Met.left (h : (a.and b).Met cfg pg) : a.Met cfg pg where
  tokensFree k hk := h.tokensFree k (List.mem_append_left _ hk)
  tokensDistinct := (List.nodup_append.mp h.tokensDistinct).1
  shocksFree i hi := h.shocksFree i (List.mem_append_left _ hi)
  shocksDistinct := (List.nodup_append.mp h.shocksDistinct).1
  resolved ho := h.resolved (by simp [and, ho])

theorem Takes.trans (h : Takes pg a pg') (h' : Takes pg' b pg'') : Takes pg (a.and b) pg'' := by
  constructor
  · intro k
    rw [h'.tokens, h.tokens, and, List.mem_append]
    tauto
  · intro i
    rw [h'.shocks, h.shocks, and, List.mem_append]
    tauto

/-- The order in which rows come makes no difference to their need. -/
theorem met_all_perm {need : α → Need} {xs ys : List α} (h : xs.Perm ys) :
    (all need xs).Met cfg pg ↔ (all need ys).Met cfg pg := by
  have htokens : (all need xs).tokenKeys.Perm (all need ys).tokenKeys := by
    rw [all_tokenKeys, all_tokenKeys]
    exact h.flatMap_right _
  have hshocks : (all need xs).shockIds.Perm (all need ys).shockIds := by
    rw [all_shockIds, all_shockIds]
    exact h.flatMap_right _
  have hoverrides : (all need xs).overrides = (all need ys).overrides := by
    rw [all_overrides, all_overrides]
    exact Bool.eq_iff_iff.mpr (by simp only [List.any_eq_true, h.mem_iff])
  constructor
  · rintro ⟨hfree, hdistinct, hshock, hids, hresolved⟩
    exact ⟨fun k hk => hfree k (htokens.mem_iff.mpr hk), htokens.nodup_iff.mp hdistinct,
      fun i hi => hshock i (hshocks.mem_iff.mpr hi), hshocks.nodup_iff.mp hids,
      fun ho => hresolved (hoverrides ▸ ho)⟩
  · rintro ⟨hfree, hdistinct, hshock, hids, hresolved⟩
    exact ⟨fun k hk => hfree k (htokens.mem_iff.mp hk), htokens.nodup_iff.mpr hdistinct,
      fun i hi => hshock i (hshocks.mem_iff.mp hi), hshocks.nodup_iff.mpr hids,
      fun ho => hresolved (hoverrides ▸ ho)⟩

end Need

/-! ## Statements -/

/-- What a statement needs. -/
def Statement.need : Statement → Need
  | .insertTokenBars batch => ⟨batch.map tokenBarKey, [], false⟩
  | .insertShockEvent event => ⟨[], [event.shockId], false⟩
  | .upsertPairTokenOverride .. => ⟨[], [], true⟩
  | _ => Need.nothing

variable {cfg : WriterConfig}

theorem tokenBarKey_boundTokenBar (bar : Bars1sToken) :
    tokenBarKey (boundTokenBar bar) = tokenBarKey bar := by
  unfold boundTokenBar
  split <;> rfl

theorem map_tokenBarKey_boundTokenBar (batch : List Bars1sToken) :
    (batch.map boundTokenBar).map tokenBarKey = batch.map tokenBarKey := by
  rw [List.map_map]
  exact List.map_congr_left fun bar _ => tokenBarKey_boundTokenBar bar

/-- A statement succeeds just in case its need is met. -/
theorem Statement.exec_isSome_iff (st : Statement) (pg : Database) :
    (st.exec cfg pg).isSome ↔ st.need.Met cfg pg := by
  cases st with
  | insertTokenBars batch =>
    have hneed : (Statement.insertTokenBars batch).need.Met cfg pg ↔
        (∀ k ∈ batch.map tokenBarKey, pg.bars1sToken k = none) ∧
          (batch.map tokenBarKey).Nodup :=
      ⟨fun h => ⟨h.tokensFree, h.tokensDistinct⟩,
        fun h => ⟨h.1, h.2, fun _ hi => absurd hi List.not_mem_nil, List.nodup_nil,
          fun ho => absurd ho Bool.false_ne_true⟩⟩
    rw [hneed, exec, Option.isSome_map, insertRows_isSome_iff, map_tokenBarKey_boundTokenBar]
    simp only [List.forall_mem_map, tokenBarKey_boundTokenBar]
  | insertShockEvent event =>
    have hneed : (Statement.insertShockEvent event).need.Met cfg pg ↔
        pg.polyShockEvents event.shockId = none :=
      ⟨fun h => h.shocksFree _ (List.mem_singleton.mpr rfl), fun h =>
        ⟨fun _ hk => absurd hk List.not_mem_nil, List.nodup_nil,
          fun i hi => (List.mem_singleton.mp hi) ▸ h, List.nodup_singleton _,
          fun ho => absurd ho Bool.false_ne_true⟩⟩
    rw [hneed, exec, Option.isSome_map, Option.isSome_iff_exists]
    constructor
    · rintro ⟨table, htable⟩
      exact (insertRow_eq_some.mp htable).1
    · exact fun h => ⟨_, insertRow_eq_some.mpr ⟨h, rfl⟩⟩
  | upsertPairTokenOverride pairId tokenSide tokenId nowMs =>
    have hneed : (Statement.upsertPairTokenOverride pairId tokenSide tokenId nowMs).need.Met cfg pg ↔
        cfg.bareColumnsResolve = true :=
      ⟨fun h => h.resolved rfl, fun h => ⟨fun _ hk => absurd hk List.not_mem_nil, List.nodup_nil,
        fun _ hi => absurd hi List.not_mem_nil, List.nodup_nil, fun _ => h⟩⟩
    rw [hneed, exec]
    by_cases hresolve : cfg.bareColumnsResolve = true
    · simp [hresolve]
    · simp [hresolve]
  | _ => exact iff_of_true rfl (Need.met_nothing cfg pg)

theorem Statement.exec_takes {st : Statement} {pg pg' : Database} (h : st.exec cfg pg = some pg') :
    Need.Takes pg st.need pg' := by
  cases st with
  | insertTokenBars batch =>
    obtain ⟨table, htable, rfl⟩ := Option.map_eq_some_iff.mp h
    refine ⟨fun k => ?_, fun i => (and_iff_left List.not_mem_nil).symm⟩
    rw [insertRows_taken htable, map_tokenBarKey_boundTokenBar]
    rfl
  | insertShockEvent event =>
    obtain ⟨table, htable, rfl⟩ := Option.map_eq_some_iff.mp h
    refine ⟨fun k => (and_iff_left List.not_mem_nil).symm, fun i => ?_⟩
    obtain ⟨-, rfl⟩ := insertRow_eq_some.mp htable
    by_cases hi : i = event.shockId
    · simp [hi, need]
    · simp [hi, need]
  | updateShockEvent update =>
    cases h
    refine ⟨fun k => (and_iff_left List.not_mem_nil).symm, fun i => ?_⟩
    -- An update changes rows, it does not make or remove them.
    by_cases hi : i = update.shockId
    · simp [hi, need, Need.nothing]
    · simp [hi, need, Need.nothing]
  | upsertPairTokenOverride pairId tokenSide tokenId nowMs =>
    simp only [exec] at h
    split at h
    · cases h
      exact Need.takes_of_eq rfl rfl
    · cases h
  | _ =>
    cases h
    exact Need.takes_of_eq rfl rfl

/-- Statements that the server does not fail succeed just in case their need is met. -/
theorem runStatements_isSome_iff (pg : Database) (sts : List Statement) :
    (runStatements cfg none pg sts).isSome ↔ (Need.all Statement.need sts).Met cfg pg := by
  induction sts generalizing pg with
  | nil => exact iff_of_true rfl (Need.met_nothing cfg pg)
  | cons st sts ih =>
    rw [runStatements, Need.all_cons]
    cases hexec : st.exec cfg pg with
    | none =>
      have hunmet : ¬ st.need.Met cfg pg := by
        rw [← Statement.exec_isSome_iff, hexec]
        exact Bool.false_ne_true
      exact iff_of_false Bool.false_ne_true fun h => hunmet h.left
    | some pg' =>
      have hmet : st.need.Met cfg pg := by
        rw [← Statement.exec_isSome_iff, hexec]
        rfl
      rw [Option.bind_some, ih, Need.met_and_iff (Statement.exec_takes hexec)]
      exact (and_iff_right hmet).symm

/-- A statement that the server fails is the only difference a fault makes. -/
theorem runStatements_of_fault {fault : Option ℕ} {pg pg' : Database} {sts : List Statement}
    (h : runStatements cfg fault pg sts = some pg') : runStatements cfg none pg sts = some pg' := by
  induction sts generalizing pg fault with
  | nil =>
    rw [runStatements] at h ⊢
    exact h
  | cons st sts ih =>
    cases fault with
    | none => exact h
    | some n =>
      cases n with
      | zero => cases h
      | succ n =>
        obtain ⟨middle, hexec, hrest⟩ := Option.bind_eq_some_iff.mp h
        exact Option.bind_eq_some_iff.mpr ⟨middle, hexec, ih hrest⟩

theorem runStatements_takes {pg pg' : Database} {sts : List Statement}
    (h : runStatements cfg none pg sts = some pg') :
    Need.Takes pg (Need.all Statement.need sts) pg' := by
  induction sts generalizing pg with
  | nil =>
    rw [runStatements] at h
    cases h
    exact Need.takes_of_eq rfl rfl
  | cons st sts ih =>
    obtain ⟨middle, hexec, hrest⟩ := Option.bind_eq_some_iff.mp h
    exact (Statement.exec_takes hexec).trans (ih hrest)

/-! ## Buffers -/

/-- What a message needs. -/
def DbMessage.need : DbMessage → Need
  | .bars1sToken bar => ⟨[tokenBarKey bar], [], false⟩
  | .shockEvent event => ⟨[], [event.shockId], false⟩
  | .pairTokenOverride .. => ⟨[], [], true⟩
  | _ => Need.nothing

/-- The need of everything in the buffers. -/
def WriterBuffers.need (b : WriterBuffers) : Need where
  tokenKeys := b.tokenBuf.map fun (_, bar) => tokenBarKey bar
  shockIds := b.shockBuf.map fun (_, event) => event.shockId
  overrides := !b.overrideBuf.isEmpty

/-- The need of the statements that write the buffers: token bars are deduplicated first. -/
def WriterBuffers.stagedNeed (b : WriterBuffers) : Need where
  tokenKeys := (dedupeRows tokenBarKey (b.tokenBuf.map Prod.snd)).map tokenBarKey
  shockIds := b.shockBuf.map fun (_, event) => event.shockId
  overrides := !b.overrideBuf.isEmpty

namespace Need

variable {α : Type*}

theorem all_tokens (f : α → List TokenBarKey) (xs : List α) :
    all (fun x => ⟨f x, [], false⟩) xs = ⟨xs.flatMap f, [], false⟩ := by
  induction xs with
  | nil => rfl
  | cons x xs ih => rw [all_cons, ih, List.flatMap_cons]; rfl

theorem all_shocks (f : α → ℤ) (xs : List α) :
    all (fun x => ⟨[], [f x], false⟩) xs = ⟨[], xs.map f, false⟩ := by
  induction xs with
  | nil => rfl
  | cons x xs ih => rw [all_cons, ih, List.map_cons]; rfl

theorem all_override (xs : List α) :
    all (fun _ => ⟨[], [], true⟩) xs = ⟨[], [], !xs.isEmpty⟩ := by
  induction xs with
  | nil => rfl
  | cons x xs ih => rw [all_cons, ih]; rfl

theorem all_nothing (xs : List α) : all (fun _ => nothing) xs = nothing :=
  all_eq_nothing fun _ _ => rfl

end Need

theorem WriterBuffers.need_statements (b : WriterBuffers) (nowMs : ℤ) :
    Need.all Statement.need (b.statements nowMs) = b.stagedNeed := by
  simp only [statements, Need.all_append, Need.all_map, Statement.need, Need.all_nothing,
    Need.all_tokens, Need.all_shocks, Need.all_override, Need.nothing_and, Need.and_nothing]
  have hchunks (chunks : List (List Bars1sToken)) :
      (chunks.flatMap fun batch => batch.map tokenBarKey) = chunks.flatten.map tokenBarKey := by
    rw [List.flatMap_def, List.map_flatten]
  rw [hchunks, flatten_toChunks]
  simp [Need.and, stagedNeed]

theorem WriterBuffers.need_entries (b : WriterBuffers) :
    Need.all (fun env => env.msg.need) b.entries = b.need := by
  simp only [entries, Need.all_append, Need.all_map, DbMessage.need, Need.all_nothing,
    Need.all_tokens, Need.all_shocks, Need.all_override, Need.nothing_and, Need.and_nothing]
  rw [← List.map_eq_flatMap]
  simp [Need.and, need]

/-- Distinct rows are as many after deduplication, so the staged need asks for less. -/
theorem WriterBuffers.met_stagedNeed {b : WriterBuffers} {pg : Database}
    (h : b.need.Met cfg pg) : b.stagedNeed.Met cfg pg where
  tokensFree k hk := by
    refine h.tokensFree k ?_
    have hmem := (mem_map_key_dedupeRows tokenBarKey _ k).mp hk
    rwa [List.map_map] at hmem
  tokensDistinct := nodup_dedupeRows tokenBarKey _
  shocksFree := h.shocksFree
  shocksDistinct := h.shocksDistinct
  resolved := h.resolved

theorem WriterBuffers.takes_need {b : WriterBuffers} {pg pg' : Database}
    (h : Need.Takes pg b.stagedNeed pg') : Need.Takes pg b.need pg' where
  tokens k := by
    rw [h.tokens, stagedNeed, mem_map_key_dedupeRows, List.map_map]
    rfl
  shocks := h.shocks

/-- A push leaves all rows in their buffers, so it asks for no less. -/
theorem WriterBuffers.met_staged_of_push {b : WriterBuffers} {pg : Database} {id : ℤ}
    {msg : DbMessage} (h : (b.push id msg).stagedNeed.Met cfg pg) : b.stagedNeed.Met cfg pg := by
  have htokens : b.tokenBuf.Sublist (b.push id msg).tokenBuf := by
    cases msg <;> first | exact List.Sublist.refl _ | exact List.sublist_append_left _ _
  have hshocks : b.shockBuf.Sublist (b.push id msg).shockBuf := by
    cases msg <;> first | exact List.Sublist.refl _ | exact List.sublist_append_left _ _
  have hoverrides : b.overrideBuf.Sublist (b.push id msg).overrideBuf := by
    cases msg <;> first | exact List.Sublist.refl _ | exact List.sublist_append_left _ _
  constructor
  · intro k hk
    refine h.tokensFree k ?_
    have hmem := (mem_map_key_dedupeRows tokenBarKey _ k).mp hk
    exact (mem_map_key_dedupeRows tokenBarKey _ k).mpr
      (((htokens.map Prod.snd).map tokenBarKey).subset hmem)
  · exact nodup_dedupeRows tokenBarKey _
  · exact fun i hi => h.shocksFree i ((hshocks.map _).subset hi)
  · exact h.shocksDistinct.sublist (hshocks.map _)
  · intro ho
    refine h.resolved ?_
    simp only [stagedNeed, Bool.not_eq_true', List.isEmpty_eq_false_iff] at ho ⊢
    exact fun hnil => ho (List.sublist_nil.mp (hnil ▸ hoverrides))

/-! ## Flushes -/

namespace Writer

variable {nowMs : ℤ}

/-- Where the need of the staged rows is met, a flush that the server does not fail commits. -/
theorem flushBuffers_of_met {w : Writer} (h : w.buffers.stagedNeed.Met cfg w.pg) :
    ∃ pg, w.flushBuffers cfg PgFaults.none nowMs = (⟨WriterBuffers.empty, pg⟩, w.buffers.entries) ∧
      Need.Takes w.pg w.buffers.need pg := by
  by_cases hempty : w.buffers.isEmpty = true
  · have hbuffers := WriterBuffers.isEmpty_iff.mp hempty
    refine ⟨w.pg, ?_, ?_⟩
    · rw [flushBuffers, if_pos hempty, hbuffers, WriterBuffers.entries_empty, ← hbuffers]
    · rw [hbuffers]
      exact Need.takes_of_eq rfl rfl
  · rw [← w.buffers.need_statements nowMs, ← runStatements_isSome_iff] at h
    obtain ⟨pg, hpg⟩ := Option.isSome_iff_exists.mp h
    refine ⟨pg, ?_, WriterBuffers.takes_need ?_⟩
    · rw [flushBuffers, if_neg hempty]
      simp [PgFaults.none, hpg]
    · rw [← w.buffers.need_statements nowMs]
      exact runStatements_takes hpg

/-- Where it is not met, every flush puts all rows back. -/
theorem flushBuffers_of_not_met {w : Writer} (h : ¬ w.buffers.stagedNeed.Met cfg w.pg) :
    w.flushBuffers cfg PgFaults.none nowMs = (w, []) := by
  obtain hkept | ⟨pg, hrun, -⟩ := w.flushBuffers_cases cfg PgFaults.none nowMs
  · exact hkept
  · have hsome : (runStatements cfg none w.pg (w.buffers.statements nowMs)).isSome := by
      change runStatements cfg none w.pg _ = some pg at hrun
      rw [hrun]
      rfl
    rw [runStatements_isSome_iff, w.buffers.need_statements nowMs] at hsome
    exact absurd hsome h

/-- A flush commits nothing and changes nothing, or its rows' need was met and their keys are
taken. -/
theorem flushBuffers_commits (w : Writer) (faults : PgFaults) :
    w.flushBuffers cfg faults nowMs = (w, []) ∨
      ∃ pg, w.flushBuffers cfg faults nowMs = (⟨WriterBuffers.empty, pg⟩, w.buffers.entries) ∧
        w.buffers.stagedNeed.Met cfg w.pg ∧ Need.Takes w.pg w.buffers.need pg := by
  obtain hkept | ⟨pg, hrun, hflush⟩ := w.flushBuffers_cases cfg faults nowMs
  · exact .inl hkept
  · have hclean := runStatements_of_fault hrun
    refine .inr ⟨pg, hflush, ?_, WriterBuffers.takes_need ?_⟩
    · rw [← w.buffers.need_statements nowMs, ← runStatements_isSome_iff, hclean]
      rfl
    · rw [← w.buffers.need_statements nowMs]
      exact runStatements_takes hclean

end Writer

end AlphaMonitor.Store
